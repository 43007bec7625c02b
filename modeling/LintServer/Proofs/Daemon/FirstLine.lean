import LintServer.Daemon.Exchange
import LintServer.Proofs.Text.Ascii
import Mathlib.Data.List.TakeWhile

/-!
# The first line of a reply

What stands behind the first line feed of a reply changes nothing, whatever octets
stand before it and behind it (`send_first_line`).
-/

namespace LintServer.Daemon

open Text.Utf8 (decode)

section
variable {line : List UInt8} (single : 10 ∉ line) (tail : List UInt8)
include single

/-- A line is decoded on its own, also one that ends within a character. -/
theorem firstLine_append : Response.firstLine (line ++ 10 :: tail) = Response.firstLine line := by
  have clean : ∀ c ∈ decode line, (c != '\n') = true := by
    intro c hc
    exact bne_iff_ne.2 fun feed => Text.Utf8.notMem_decode single (feed ▸ hc)
  unfold Response.firstLine
  rw [Text.Utf8.decode_append_of_lt (by decide), List.takeWhile_append_of_pos clean,
    List.takeWhile_cons_of_neg (by decide), List.append_nil, List.takeWhile_eq_self_iff.2 clean]

theorem ofReply_append (nesting : Json.Nesting) :
    Response.ofReply nesting (line ++ 10 :: tail) = Response.ofReply nesting line := by
  unfold Response.ofReply
  rw [firstLine_append single]

end

/-- Connections that behave alike, and whose replies make the same response. -/
structure Alike (c d : Connection) : Prop where
  connectError : d.connectError = c.connectError
  steps : ∀ request, Exchange.steps d request = Exchange.steps c request
  readError : d.readError = c.readError
  closeError : d.closeError = c.closeError
  response : Response.ofReply d.nesting d.reply = Response.ofReply c.nesting c.reply

namespace Alike
variable {c d : Connection} (h : Alike c d) (endpoint : Endpoint) (w : World)
include h

theorem close_eq {α : Type} (outcome : Except Fault α) : Daemon.close d outcome w = Daemon.close c outcome w := by
  rw [Daemon.close, Daemon.close, h.closeError]

theorem finish_eq : Exchange.finish ⟨endpoint, d⟩ w = Exchange.finish ⟨endpoint, c⟩ w := by
  unfold Exchange.finish
  dsimp only
  rw [h.close_eq, h.readError]
  unfold Daemon.close
  dsimp only
  cases c.readError with
  | some e =>
    cases c.closeError with
    | none => rfl
    | some e =>
      dsimp only
      cases e.isSystem <;> rfl
  | none =>
    cases c.closeError with
    | none => exact congrArg (·, w.emit .close) h.response
    | some e =>
      dsimp only
      cases e.isSystem with
      | true => exact congrArg (·, w.emit .close) h.response
      | false => rfl

/-- Both fail in the same way, or both wait for their replies. -/
theorem sendOn_cases (request : Request) :
    (∃ e v, Exchange.sendOn endpoint request d w = (.error e, v) ∧
      Exchange.sendOn endpoint request c w = (.error e, v)) ∨
    ∃ v, Exchange.sendOn endpoint request d w = (.ok ⟨endpoint, d⟩, v) ∧
      Exchange.sendOn endpoint request c w = (.ok ⟨endpoint, c⟩, v) := by
  unfold Exchange.sendOn
  simp only [h.connectError, h.steps, h.close_eq]
  cases c.connectError with
  | some e => exact .inl ⟨_, _, rfl, rfl⟩
  | none =>
    dsimp only
    rcases Exchange.take (Exchange.steps c request) w with ⟨error, v⟩
    cases error with
    | none => exact .inr ⟨v, rfl, rfl⟩
    | some e =>
      unfold Daemon.close
      dsimp only
      cases c.closeError with
      | none => exact .inl ⟨_, _, rfl, rfl⟩
      | some e =>
        dsimp only
        cases e.isSystem <;> exact .inl ⟨_, _, rfl, rfl⟩

theorem send_eq (rest : List Connection) (request : Request) (limit : Option Double) :
    let sent k := Exchange.send endpoint request limit { w with connections := k :: rest }
    (sent d).1 = (sent c).1 ∧ (sent d).2.log = (sent c).2.log := by
  unfold Exchange.send connect
  cases isSpent limit with
  | true => exact ⟨rfl, rfl⟩
  | false =>
    -- Connecting takes the connection off the queue, so from here on the worlds are the same.
    simp only [Bool.false_eq_true, if_false, World.connect, World.tellLimit, World.emit, World.contact]
    generalize World.mk _ _ _ _ _ _ _ _ = v
    rcases h.sendOn_cases endpoint v request with ⟨e, u, sent, sent'⟩ | ⟨u, sent, sent'⟩
    · rw [sent, sent']
      exact ⟨rfl, rfl⟩
    · rw [sent, sent']
      dsimp only
      rw [h.finish_eq]
      exact ⟨rfl, rfl⟩

end Alike

/-- **Only the first line counts.** A request is answered alike, and with the same steps on the
way, whether the reply ends with its first line or anything stands behind that. -/
theorem send_first_line (endpoint : Endpoint) (request : Request) (limit : Option Double) (w : World)
    (c : Connection) (rest : List Connection) {line : List UInt8} (single : 10 ∉ line) (tail : List UInt8) :
    let sent reply := Exchange.send endpoint request limit
      { w with connections := { c with reply := reply } :: rest }
    (sent (line ++ 10 :: tail)).1 = (sent line).1 ∧ (sent (line ++ 10 :: tail)).2.log = (sent line).2.log :=
  have alike : Alike { c with reply := line } { c with reply := line ++ 10 :: tail } :=
    ⟨rfl, fun _ => rfl, rfl, rfl, ofReply_append single tail c.nesting⟩
  alike.send_eq endpoint w rest request limit

/-- The line ends within a character, which the octet behind the line feed would complete. -/
theorem send_first_line_within_character :
    let sent reply := (Exchange.send {} ⟨["lint"], clientId⟩ none { connections := [{ reply := reply }] }).1
    10 ∉ ([0x22, 0xE2, 0x82] : List UInt8) ∧
      sent ([0x22, 0xE2, 0x82] ++ 10 :: [0xAC, 0x22]) = sent [0x22, 0xE2, 0x82] ∧
      sent [0x22, 0xE2, 0x82] =
        .error (.protocol ⟨"Invalid JSON from LuCLI daemon (Unterminated string starting at)", some "\"\uFFFD"⟩) := by
  have single : 10 ∉ ([0x22, 0xE2, 0x82] : List UInt8) := by decide
  exact ⟨single, (send_first_line {} ⟨["lint"], clientId⟩ none {} {} [] single [0xAC, 0x22]).1, by decide +kernel⟩

end LintServer.Daemon
