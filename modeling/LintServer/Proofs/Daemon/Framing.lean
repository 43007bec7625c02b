import LintServer.Proofs.Daemon.Stages
import LintServer.Proofs.Json.Limits
import LintServer.Proofs.Text.Octets

/-!
# Framing of requests and replies

A request is one line of ASCII from which it can be told (`line_framed`). The
response that is read from a connection without errors is the one that was written
there, whatever stands behind its line (`send_returns_response`).
-/

namespace LintServer.Daemon

open Json (Escaping Exact)
open Text (trimEndWhile_of_none)
open Text.Utf8 (decode_cons_of_lt)

/-! ## Requests -/

def Request.octets (r : Request) : List UInt8 :=
  Text.Utf8.encode r.line

/-- The request with these texts. -/
def Request.ofStrings (id : String) (argv : List String) : Request :=
  ⟨argv.map .ofString, id⟩

section
variable (nesting : Json.Nesting) (id : String) (argv : List String)

theorem exact_json : Exact nesting.reading (Request.ofStrings id argv).json := by
  obtain ⟨depth, two⟩ := Nat.exists_eq_add_of_le' nesting.two_le_reading
  rw [two]
  refine .obj _ ?_ ?_ ?_
  · simp only [List.map_cons, List.map_nil]
    decide
  · intro field h
    simp only [List.mem_cons, List.not_mem_nil, or_false] at h
    rcases h with rfl | rfl
    · exact ⟨"id", rfl⟩
    · exact ⟨"argv", rfl⟩
  · intro field h
    simp only [List.mem_cons, List.not_mem_nil, or_false] at h
    rcases h with rfl | rfl
    · exact .str id
    · refine .arr _ fun item hi => ?_
      obtain ⟨t, listed, rfl⟩ := List.mem_map.1 hi
      obtain ⟨s, -, rfl⟩ := List.mem_map.1 listed
      exact .str s

theorem lt_of_keeps {c : Char} (h : Escaping.ascii.keeps c = true) : c.toNat < 0x80 := by
  have : c ≤ '~' := of_decide_eq_true (Bool.and_eq_true_iff.1 h).2
  exact Nat.lt_of_le_of_lt (UInt32.le_iff_toNat_le.1 (Char.le_def.1 this)) (by decide)

theorem octets_eq : (Request.ofStrings id argv).octets =
    ((Request.ofStrings id argv).json.write .ascii).map (fun c => UInt8.ofNat c.toNat) ++ [10] := by
  rw [Request.octets, Request.line, Text.Utf8.encode_of_ascii, List.map_append]
  · rfl
  · intro c hc
    rcases List.mem_append.1 hc with hc | hc
    · exact lt_of_keeps (Json.kept_write (exact_json {} id argv) c hc)
    · rw [List.mem_singleton.1 hc]
      decide

theorem octets_ne_lineFeed :
    ∀ b ∈ ((Request.ofStrings id argv).json.write .ascii).map (fun c => UInt8.ofNat c.toNat),
      b.toNat < 0x80 ∧ b ≠ 10 := by
  intro b hb
  obtain ⟨c, hc, rfl⟩ := List.mem_map.1 hb
  have keeps := Json.kept_write (exact_json {} id argv) c hc
  have low := lt_of_keeps keeps
  have high := Json.ge_of_keeps keeps
  have same : (UInt8.ofNat c.toNat).toNat = c.toNat := Text.Utf8.toNat_ofNat_of_lt (by omega)
  refine ⟨by rwa [same], fun h => ?_⟩
  rw [h] at same
  rw [← same] at high
  exact absurd high (by decide)

theorem readText_octets : Json.readText nesting (Text.Utf8.decode (Request.ofStrings id argv).octets) =
    .ok (Request.ofStrings id argv).json := by
  rw [Request.octets, Text.Utf8.decode_encode, Request.line]
  exact Json.readText_write .ascii (exact_json nesting id argv) (List.forall_mem_singleton.2 rfl)

variable {id argv}

theorem json_inj {id' : String} {argv' : List String}
    (h : (Request.ofStrings id argv).json = (Request.ofStrings id' argv').json) : id = id' ∧ argv = argv' := by
  simp only [Request.json, Request.ofStrings, Json.ofTexts, Json.obj.injEq, List.cons.injEq, Prod.mk.injEq,
    Json.str.injEq, Json.arr.injEq, LooseText.ofString_inj, true_and, and_true, List.map_map] at h
  have texts : Function.Injective (Json.str ∘ LooseText.ofString) := by
    intro s t e
    exact LooseText.ofString_inj.1 (Json.str.inj e)
  exact ⟨h.1, List.map_injective_iff.2 texts h.2⟩

end

/-- **A request is one line** of ASCII, which holds the client and the arguments as they
are; different requests have different lines. -/
theorem line_framed (nesting : Json.Nesting) (id : String) (argv : List String) :
    let octets := (Request.ofStrings id argv).octets
    (∀ b ∈ octets, b.toNat < 0x80) ∧ octets.count 10 = 1 ∧ octets.getLast? = some 10 ∧
      Json.readText nesting (Text.Utf8.decode octets) =
        .ok (.obj [("id", .str id), ("argv", .arr (argv.map Json.ofString))]) ∧
      ∀ id' argv', (Request.ofStrings id' argv').octets = octets ↔ id' = id ∧ argv' = argv := by
  intro octets
  have letters := octets_ne_lineFeed id argv
  have single : octets = _ := octets_eq id argv
  have read := readText_octets nesting id argv
  refine ⟨?_, ?_, ?_, ?_, fun id' argv' => ⟨fun h => ?_, ?_⟩⟩
  · intro b hb
    rw [single] at hb
    rcases List.mem_append.1 hb with hb | hb
    · exact (letters b hb).1
    · rw [List.mem_singleton.1 hb]
      decide
  · rw [single, List.count_append, List.count_eq_zero.2 fun h => (letters 10 h).2 rfl]
    rfl
  · rw [single, List.getLast?_concat]
  · rw [read, Request.json, Request.ofStrings, Json.ofTexts, List.map_map]
    rfl
  · have other := readText_octets nesting id' argv'
    rw [h, read] at other
    exact json_inj (Except.ok.inj other).symm
  · rintro ⟨rfl, rfl⟩
    rfl

/-! ## The line of a response -/

/-- The end of a line: that of the whole reply, or a line feed, behind which anything may stand,
with or without a carriage return. -/
def EndsLine (tail : List UInt8) : Prop :=
  tail = [] ∨ ∃ rest, tail = 10 :: rest ∨ tail = 13 :: 10 :: rest

theorem EndsLine.returns {tail : List UInt8} (h : EndsLine tail) :
    ((Text.Utf8.decode tail).takeWhile (· != '\n')).all (· == '\r') = true := by
  rcases h with rfl | ⟨rest, rfl | rfl⟩
  · rfl
  · rw [decode_cons_of_lt (by decide), List.takeWhile_cons_of_neg (by decide)]
    rfl
  · rw [decode_cons_of_lt (by decide), List.takeWhile_cons_of_pos (by decide), decode_cons_of_lt (by decide),
      List.takeWhile_cons_of_neg (by decide)]
    rfl

/-- A text without line ends is the first line, whatever stands behind the end of the line. -/
theorem firstLine_encode {cs : List Char} (h : ∀ c ∈ cs, c ≠ '\n' ∧ c ≠ '\r') {tail : List UInt8}
    (ended : EndsLine tail) : Response.firstLine (Text.Utf8.encode cs ++ tail) = cs := by
  unfold Response.firstLine
  rw [Text.Utf8.decode_encode_append, List.takeWhile_append_of_pos fun c hc => bne_iff_ne.2 (h c hc).1,
    Text.trimEndWhile_append_of_all ended.returns, trimEndWhile_of_none fun c hc => beq_false_of_ne (h c hc).2]

/-- A written value is a line of its own. -/
theorem firstLine_write (e : Escaping) {depth : Nat} {v : Json} (exact : Exact depth v) {tail : List UInt8}
    (ended : EndsLine tail) : Response.firstLine (Text.Utf8.encode (v.write e) ++ tail) = v.write e := by
  refine firstLine_encode (fun c hc => ?_) ended
  have high := Json.ge_of_keeps (Json.kept_write exact c hc)
  constructor
  · rintro rfl
    exact absurd high (by decide)
  · rintro rfl
    exact absurd high (by decide)

section
variable {nesting : Json.Nesting} {fields : List (LooseText × Json)}

theorem display_ok_of_showable {value : Json} (h : Json.Showable nesting.showing value) :
    ∃ text, value.display nesting = .ok text := by
  unfold Json.display
  split
  · exact ⟨_, rfl⟩
  · exact (Json.exists_map_ok_iff _ _).2 ((Json.shown_ok_iff value nesting.showing).2 h)

/-- What was read as the client of a response can be shown. -/
theorem idText_ok_of_read {cs : List Char} (read : Json.readText nesting cs = .ok (.obj fields)) :
    ∃ id, Response.idText nesting (Json.field? "id" fields) = .ok id := by
  have shown := Json.showable_of_read read
  unfold Response.idText
  split
  · exact ⟨none, rfl⟩
  · exact ⟨none, rfl⟩
  · rename_i value _ given
    have value := (Json.showable_of_field? shown given).mono nesting.reading_le_showing
    exact (Json.exists_map_ok_iff _ _).2 (display_ok_of_showable value)

/-- The object of a response is read with the exit code, the output and the client that it holds. -/
theorem ofReply_write (e : Escaping) (exact : Exact nesting.reading (.obj fields))
    {code : Int} (hc : (("exitCode" : LooseText), Json.int code) ∈ fields) {output : String}
    (ho : (("output" : LooseText), Json.str output) ∈ fields) {tail : List UInt8} (ended : EndsLine tail) :
    ∃ id, Response.idText nesting (Json.field? "id" fields) = .ok id ∧
      Response.ofReply nesting (Text.Utf8.encode ((Json.obj fields).write e) ++ tail) = .ok ⟨code, output, id⟩ := by
  have read : Json.readText nesting ((Json.obj fields).write e) = .ok (.obj fields) := by
    rw [← List.append_nil (Json.write e _)]
    exact Json.readText_write e exact (List.forall_mem_nil _)
  have visible : ((Json.obj fields).write e).all Text.isBlank = false := by
    cases fields with
    | nil => cases hc
    | cons field fields =>
      rw [Json.write_obj_cons, List.all_cons, show Text.isBlank '{' = false by decide, Bool.false_and]
  have keys := exact.keys
  obtain ⟨id, client⟩ := idText_ok_of_read read
  refine ⟨id, client, ?_⟩
  unfold Response.ofReply Response.ofLine
  simp only [firstLine_write e exact ended, visible, Json.read, String.toList_ofList, read, Json.field?_of_mem keys hc,
    Json.field?_of_mem keys ho, client, Bool.false_eq_true, if_false]

theorem exact_response (nesting : Json.Nesting) {code : Int}
    (short : (Nat.toDigits 10 code.natAbs).length ≤ Text.NumeralTooLong.limit) {output id : String}
    (keys : (fields.map (·.1)).Nodup)
    (listed : fields ⊆ [("exitCode", .int code), ("output", .str output), ("id", .str id)]) :
    Exact nesting.reading (.obj fields) := by
  obtain ⟨depth, two⟩ := Nat.exists_eq_add_of_le' nesting.two_le_reading
  rw [two]
  refine .obj fields keys (fun field hf => ?_) fun field hf => ?_
  all_goals
    have hf := listed hf
    simp only [List.mem_cons, List.not_mem_nil, or_false] at hf
  · rcases hf with rfl | rfl | rfl <;> exact ⟨_, rfl⟩
  · rcases hf with rfl | rfl | rfl
    · exact .int code short
    · exact .str output
    · exact .str id

end

/-- Octets whose first line is the object of a response with this exit code and output, and
whatever other fields. -/
inductive Carries (nesting : Json.Nesting) (code : Int) (output : String) : List UInt8 → Prop
  | line (e : Escaping) (fields : List (LooseText × Json)) (tail : List UInt8)
      (exact : Exact nesting.reading (.obj fields)) (hasCode : (("exitCode" : LooseText), Json.int code) ∈ fields)
      (hasOutput : (("output" : LooseText), Json.str output) ∈ fields) (ended : EndsLine tail) :
      Carries nesting code output (Text.Utf8.encode ((Json.obj fields).write e) ++ tail)

section
variable {nesting : Json.Nesting} {code : Int}

theorem carries_plain (short : (Nat.toDigits 10 code.natAbs).length ≤ Text.NumeralTooLong.limit)
    (output : String) (e : Escaping) {tail : List UInt8} (ended : EndsLine tail) :
    Carries nesting code output
      (Text.Utf8.encode ((Json.obj [("exitCode", .int code), ("output", .str output)]).write e) ++ tail) := by
  have listed : [(("exitCode" : LooseText), Json.int code), ("output", .str output)] ⊆
      [("exitCode", .int code), ("output", .str output), ("id", .str "")] :=
    List.subset_append_left [_, _] [_]
  refine .line e _ tail (exact_response nesting short ?_ listed) (by simp) (by simp) ended
  simp only [List.map_cons, List.map_nil]
  decide

theorem ofReply_of_carries {output : String} {reply : List UInt8} (h : Carries nesting code output reply) :
    ∃ id, Response.ofReply nesting reply = .ok ⟨code, output, id⟩ := by
  cases h with
  | line e fields tail exact hasCode hasOutput ended =>
    obtain ⟨id, -, read⟩ := ofReply_write e exact hasCode hasOutput ended
    exact ⟨id, read⟩

end

/-! ## Exchanges -/

/-- A connection on which nothing fails. -/
structure Untroubled (c : Connection) : Prop where
  connected : c.connectError = none
  written : c.writeError = none
  drained : c.drainError = none
  halfClosed : c.halfCloseError = none
  answered : c.readError = none
  closed : c.closeError = none

theorem Untroubled.systemic {c : Connection} (h : Untroubled c) : Systemic c := by
  simp [Systemic, h.connected, h.written, h.drained, h.halfClosed, h.answered, h.closed]

theorem Untroubled.delivers {c : Connection} (h : Untroubled c) : Delivers c :=
  ⟨h.connected, h.written, h.drained, fun _ => h.halfClosed, h.answered⟩

namespace Exchange

section
variable {c : Connection} (h : Untroubled c)
include h

theorem sendOn_of_untroubled (endpoint : Endpoint) (request : Request) (w : World) :
    ∃ w', sendOn endpoint request c w = (.ok ⟨endpoint, c⟩, w') := by
  rcases sendOn_cases h.systemic endpoint request w with ⟨w', sent, -⟩ | ⟨f, w', -, lost⟩
  · exact ⟨w', sent⟩
  · exact absurd h.delivers lost

theorem finish_of_untroubled (endpoint : Endpoint) (w : World) :
    (finish ⟨endpoint, c⟩ w).1 = Response.ofReply c.nesting c.reply := by
  rw [finish_fst h.systemic, h.answered]

theorem send_of_untroubled {endpoint : Endpoint} {limit : Option Double} {w : World}
    (given : (connect endpoint limit (w.tellLimit limit)).1 = c) (request : Request) :
    (send endpoint request limit w).1 = Response.ofReply c.nesting c.reply := by
  rcases send_cases h.systemic given request with ⟨-, sent⟩ | ⟨lost, -⟩
  · exact sent
  · exact absurd h.delivers lost

end

end Exchange

theorem not_spent_default : isSpent (some Exchange.defaultLimit) = false := by decide +kernel

/-- **The response is the one that was written.** Over a connection without errors the exit
code, the output and the client are read as they were written on one line of JSON, in
whatever order, with either escaping, and whatever stands behind the line. -/
theorem send_returns_response {endpoint : Endpoint} {request : Request} {limit : Option Double} {w : World}
    {c : Connection} (given : (connect endpoint limit (w.tellLimit limit)).1 = c) (h : Untroubled c) {e : Escaping}
    {code : Int} (short : (Nat.toDigits 10 code.natAbs).length ≤ Text.NumeralTooLong.limit) {output id : String}
    {fields : List (LooseText × Json)}
    (listed : fields.Perm [("exitCode", .int code), ("output", .str output), ("id", .str id)])
    {tail : List UInt8} (ended : EndsLine tail)
    (reply : c.reply = Text.Utf8.encode ((Json.obj fields).write e) ++ tail) :
    (Exchange.send endpoint request limit w).1 = .ok ⟨code, output, some id⟩ := by
  have keys : (fields.map (·.1)).Nodup := by
    rw [(listed.map _).nodup_iff]
    simp only [List.map_cons, List.map_nil]
    decide
  have exact : Exact c.nesting.reading (.obj fields) := exact_response c.nesting short keys listed.subset
  have hasCode : (("exitCode" : LooseText), Json.int code) ∈ fields := listed.mem_iff.2 (by simp)
  have hasOutput : (("output" : LooseText), Json.str output) ∈ fields := listed.mem_iff.2 (by simp)
  have client : Json.field? "id" fields = some (.str id) := Json.field?_of_mem keys (listed.mem_iff.2 (by simp))
  obtain ⟨shown, showing, read⟩ := ofReply_write e exact hasCode hasOutput ended
  rw [client] at showing
  cases showing
  rw [Exchange.send_of_untroubled h given, reply, read]

theorem send_returns_response_reordered :
    (Exchange.send {} ⟨["lint"], clientId⟩ (some Exchange.defaultLimit)
      { connections := [{ reply := Text.Utf8.encode ((Json.obj
        [("id", .str "é"), ("exitCode", .int (-1)), ("output", .str "\u2028\n\"𝄞")]).write .ascii) ++
          [13, 10, 0xFF] }] }).1 = .ok ⟨-1, "\u2028\n\"𝄞", some "é"⟩ := by
  have short : (Nat.toDigits 10 (-1 : Int).natAbs).length ≤ Text.NumeralTooLong.limit := by decide
  have listed : [(("id" : LooseText), Json.str "é"), ("exitCode", .int (-1)), ("output", .str "\u2028\n\"𝄞")].Perm
      [("exitCode", .int (-1)), ("output", .str "\u2028\n\"𝄞"), ("id", .str "é")] := by
    show ([_] ++ [_, _]).Perm ([_, _] ++ [_])
    exact List.perm_append_comm
  have ended : EndsLine [13, 10, 0xFF] := .inr ⟨[0xFF], .inr rfl⟩
  refine send_returns_response (c := { reply := _ }) (e := .ascii) ?_ ⟨rfl, rfl, rfl, rfl, rfl, rfl⟩ short listed ended
    rfl
  rw [connect, not_spent_default]
  rfl

end LintServer.Daemon
