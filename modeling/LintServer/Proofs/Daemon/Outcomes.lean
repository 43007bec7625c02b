import LintServer.Proofs.Daemon.Framing
import Mathlib.Algebra.Order.Ring.Nat

/-!
# How an exchange ends

Where the operating system is the only source of errors, an exchange ends with a
response, an error of the transport, or a breach of the protocol that is told with
the first line of the reply, unless the reader gives up on that line
(`classified_iff`).
-/

namespace LintServer.Daemon

/-- A response, an error of the transport, or a breach of the protocol in this line. -/
inductive Classified (line : String) : Except Fault Response → Prop
  | response (r : Response) : Classified line (.ok r)
  | transport (f : TransportFault) : Classified line (.error (.transport f))
  | protocol (summary : String) : Classified line (.error (.protocol ⟨summary, some line⟩))

/-- The reader tells no flaw of the line, but does not read it either. -/
def GivesUp (nesting : Json.Nesting) (line : String) : Prop :=
  ∃ e, Json.read nesting line = .error e ∧ ∀ f, e ≠ .flaw f

/-! ## Replies -/

section
variable {nesting : Json.Nesting}

theorem GivesUp.cause {cs : List Char} (h : GivesUp nesting (String.ofList cs)) :
    (∃ n, Text.NumeralTooLong.limit < n ∧ Json.HasRun n cs) ∨ nesting.reading < Json.openings cs := by
  obtain ⟨e, failed, other⟩ := h
  rw [Json.read, String.toList_ofList] at failed
  have founded := Json.founded_of_read failed
  cases e with
  | flaw f => exact absurd rfl (other f)
  | tooLong e => exact .inl ⟨e.digits, founded⟩
  | tooDeep e => exact .inr founded

theorem not_blank_of_isDigit {c : Char} (h : c.isDigit = true) : Text.isBlank c = false := by
  have bounds := Text.toNat_of_isDigit h
  simp only [Text.isBlank, Bool.or_eq_false_iff, Bool.and_eq_false_iff, decide_eq_false_iff_not, beq_eq_false_iff_ne]
  omega

theorem not_givesUp_of_blank {cs : List Char} (blank : ∀ c ∈ cs, Text.isBlank c = true) :
    ¬ GivesUp nesting (String.ofList cs) := by
  intro h
  rcases h.cause with ⟨n, long, ds, inside, length, digits⟩ | deep
  · cases ds with
    | nil =>
      rw [← length] at long
      cases long
    | cons d ds =>
      have := not_blank_of_isDigit (digits d List.mem_cons_self)
      rw [blank d (inside.subset List.mem_cons_self)] at this
      cases this
  · obtain ⟨c, inside, bracket⟩ := List.countP_pos_iff.1 (Nat.zero_lt_of_lt deep)
    rcases Bool.or_eq_true_iff.1 bracket with same | same
    · cases eq_of_beq same
      exact absurd (blank _ inside) (by decide)
    · cases eq_of_beq same
      exact absurd (blank _ inside) (by decide)

theorem classified_ofLine_iff (line : String) :
    Classified line (Response.ofLine nesting line) ↔ ¬ GivesUp nesting line := by
  unfold Response.ofLine GivesUp
  cases read : Json.read nesting line with
  | error e =>
    cases e with
    | flaw f => exact ⟨fun _ ⟨e, same, other⟩ => by cases same; exact other f rfl, fun _ => .protocol _⟩
    | tooLong e => exact ⟨nofun, fun h => absurd ⟨_, rfl, nofun⟩ h⟩
    | tooDeep e => exact ⟨nofun, fun h => absurd ⟨_, rfl, nofun⟩ h⟩
  | ok value =>
    refine ⟨fun _ => nofun, fun _ => ?_⟩
    cases value with
    | obj fields =>
      obtain ⟨id, client⟩ := idText_ok_of_read read
      simp only [client]
      split
      · split
        · exact .response _
        · exact .response _
        · exact .response _
        · exact .protocol _
      · exact .protocol _
    | _ => exact .protocol _

theorem classified_ofReply_iff (reply : List UInt8) :
    Classified (String.ofList (Response.firstLine reply)) (Response.ofReply nesting reply) ↔
      ¬ GivesUp nesting (String.ofList (Response.firstLine reply)) := by
  unfold Response.ofReply
  dsimp only
  split
  · rename_i blank
    exact ⟨fun _ => not_givesUp_of_blank (List.all_eq_true.1 blank), fun _ => .protocol _⟩
  · exact classified_ofLine_iff _

end

/-! ## Exchanges -/

section
variable {c : Connection} (h : Systemic c) {endpoint : Endpoint} {limit : Option Double} {w : World}
  (given : (connect endpoint limit (w.tellLimit limit)).1 = c) (request : Request)
include h given

/-- **How an exchange ends.** With errors of the operating system alone it ends with a response, an error of the
transport, or a breach of the protocol in the first line of the reply, except where the reply comes in and the
reader gives up on that line: over a run of more than 4300 digits or more brackets that open than it takes. -/
theorem classified_iff :
    (Classified (String.ofList (Response.firstLine c.reply)) (Exchange.send endpoint request limit w).1 ↔
      ¬ (Delivers c ∧ GivesUp c.nesting (String.ofList (Response.firstLine c.reply)))) ∧
    (GivesUp c.nesting (String.ofList (Response.firstLine c.reply)) →
      (∃ n, Text.NumeralTooLong.limit < n ∧ Json.HasRun n (Response.firstLine c.reply)) ∨
        c.nesting.reading < Json.openings (Response.firstLine c.reply)) := by
  refine ⟨?_, GivesUp.cause⟩
  rcases Exchange.send_cases h given request with ⟨delivers, sent⟩ | ⟨lost, f, sent⟩
  · rw [sent, classified_ofReply_iff, not_and]
    exact ⟨fun read _ => read, fun read => read delivers⟩
  · rw [sent]
    exact ⟨fun _ both => lost both.1, fun _ => .transport f⟩

end

theorem classified_iff_closing_error :
    Classified "no" (Exchange.send {} ⟨["lint"], clientId⟩ none { connections :=
      [{ reply := [110, 111, 13, 10, 49], closeError := some (.system .connectionReset "reset") }] }).1 := by
  let c : Connection := { reply := [110, 111, 13, 10, 49], closeError := some (.system .connectionReset "reset") }
  have h : Systemic c := by simp [Systemic, c, Accident.isSystem]
  have flawed : Json.read c.nesting "no" = .error (.flaw .expectedValue) := rfl
  refine (classified_iff (c := c) (w := { connections := [c] }) h rfl ⟨["lint"], clientId⟩).1.2 ?_
  rintro ⟨-, e, failed, other⟩
  exact other .expectedValue (Except.error.inj (failed.symm.trans flawed))

def numbered (n : Nat) : Connection :=
  { reply := Text.Utf8.encode (Nat.toDigits 10 n) }

theorem firstLine_numbered (n : Nat) : Response.firstLine (numbered n).reply = Nat.toDigits 10 n := by
  have plain : ∀ c ∈ Nat.toDigits 10 n, c ≠ '\n' ∧ c ≠ '\r' := by
    intro c inside
    have digit := Text.isDigit_toDigits n c inside
    constructor <;> rintro rfl <;> cases digit
  have line := firstLine_encode plain (.inl rfl)
  rwa [List.append_nil] at line

theorem givesUp_of_long {n : Nat} (long : Text.NumeralTooLong.limit < (Nat.toDigits 10 n).length) :
    GivesUp (numbered n).nesting (String.ofList (Nat.toDigits 10 n)) := by
  refine ⟨.tooLong ⟨(Nat.toDigits 10 n).length⟩, ?_, nofun⟩
  rw [Json.read, String.toList_ofList]
  exact Json.readText_toDigits_of_long long (numbered n).nesting

theorem unclassified_of_long {n : Nat} (long : Text.NumeralTooLong.limit < (Nat.toDigits 10 n).length) :
    Systemic (numbered n) ∧ ¬ Classified (String.ofList (Response.firstLine (numbered n).reply))
      (Exchange.send {} ⟨["lint"], clientId⟩ none { connections := [numbered n] }).1 := by
  have h : Systemic (numbered n) := by simp [Systemic, numbered]
  have given : (connect {} none (World.tellLimit { connections := [numbered n] } none)).1 = numbered n := rfl
  refine ⟨h, fun classified => ?_⟩
  rcases Exchange.send_cases h given ⟨["lint"], clientId⟩ with ⟨-, sent⟩ | ⟨lost, -⟩
  · rw [sent, classified_ofReply_iff, firstLine_numbered] at classified
    exact classified (givesUp_of_long long)
  · exact lost ⟨rfl, rfl, rfl, fun _ => rfl, rfl⟩

/-- A reply that is a whole number of 4301 digits. -/
theorem numbered_unclassified :
    Systemic (numbered (10 ^ 4300)) ∧
      ¬ Classified (String.ofList (Response.firstLine (numbered (10 ^ 4300)).reply))
        (Exchange.send {} ⟨["lint"], clientId⟩ none { connections := [numbered (10 ^ 4300)] }).1 := by
  refine unclassified_of_long (Nat.lt_of_not_le fun short => ?_)
  exact Nat.lt_irrefl _ ((Nat.length_toDigits_le_iff (by decide) (by decide)).1 short)

end LintServer.Daemon
