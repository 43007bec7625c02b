import LintServer.Proofs.Json.Scalars
import Mathlib.Data.List.Nodup
import Mathlib.Data.List.TakeWhile

/-!
# Written values

A value without doubles is read back from its text, whichever way its texts are
escaped, if it is not nested too deep and has no number with too many digits
(`readText_write`). What is written holds no control character and, if so wanted,
nothing but ASCII (`kept_write`).
-/

namespace LintServer.Json

/-- A value that is nested at most `depth` deep and written without loss: texts are made of
characters, an object has no key twice, numbers are whole and not too long. -/
inductive Exact : Nat → Json → Prop
  | null {depth : Nat} : Exact depth .null
  | bool {depth : Nat} (b : Bool) : Exact depth (.bool b)
  | int {depth : Nat} (n : Int) (h : (Nat.toDigits 10 n.natAbs).length ≤ Text.NumeralTooLong.limit) :
      Exact depth (.int n)
  | str {depth : Nat} (s : String) : Exact depth (.str s)
  | arr {depth : Nat} (items : List Json) (h : ∀ item ∈ items, Exact depth item) :
      Exact (depth + 1) (.arr items)
  | obj {depth : Nat} (fields : List (LooseText × Json)) (keys : (fields.map (·.1)).Nodup)
      (names : ∀ field ∈ fields, ∃ s : String, field.1 = s) (values : ∀ field ∈ fields, Exact depth field.2) :
      Exact (depth + 1) (.obj fields)

theorem Exact.keys {depth : Nat} {fields : List (LooseText × Json)} (h : Exact depth (.obj fields)) :
    (fields.map (·.1)).Nodup := by
  cases h
  assumption

/-! ## Objects without a key twice -/

theorem setField_of_new {key : LooseText} {fields : List (LooseText × Json)} (h : key ∉ fields.map (·.1))
    (value : Json) : setField key value fields = fields ++ [(key, value)] := by
  induction fields with
  | nil => rfl
  | cons field fields ih =>
    rw [List.map_cons, List.mem_cons, not_or] at h
    rw [setField, if_neg (Ne.symm h.1), ih h.2, List.cons_append]

theorem ofMembers_of_nodup {members : List (LooseText × Json)} (h : (members.map (·.1)).Nodup) :
    ofMembers members = .obj members := by
  -- The induction needs the fields that are there already.
  have grown (fields : List (LooseText × Json)) : ((fields ++ members).map (·.1)).Nodup →
      members.foldl (fun fields m => setField m.1 m.2 fields) fields = fields ++ members := by
    clear h
    induction members generalizing fields with
    | nil =>
      intro _
      exact (List.append_nil _).symm
    | cons m members ih =>
      intro h
      have new : m.1 ∉ fields.map (·.1) := by
        rw [List.map_append, List.map_cons, List.nodup_middle, List.nodup_cons] at h
        exact fun hm => h.1 (List.mem_append_left _ hm)
      rw [List.append_cons] at h ⊢
      rw [List.foldl_cons, setField_of_new new, ih _ h]
  rw [ofMembers, grown [] h, List.nil_append]

theorem field?_of_mem {fields : List (LooseText × Json)} (keys : (fields.map (·.1)).Nodup) {key : LooseText}
    {value : Json} (h : (key, value) ∈ fields) : field? key fields = some value := by
  unfold field?
  induction fields with
  | nil => cases h
  | cons field fields ih =>
    obtain ⟨new, keys⟩ := List.nodup_cons.1 keys
    rcases List.mem_cons.1 h with rfl | h
    · rw [List.lookup_cons, beq_self_eq_true]
    · have other : key ≠ field.1 := by
        rintro rfl
        exact new (List.mem_map.2 ⟨_, h, rfl⟩)
      rw [List.lookup_cons, beq_false_of_ne other]
      exact ih keys h

/-! ## Texts of arrays and objects -/

section
variable (e : Escaping)

/-- The text of a member of an object, up to the end of its value. -/
def writeMember (name : LooseText) (value : Json) : List Char :=
  writeText e name ++ ':' :: ' ' :: write e value

theorem write_arr_cons (item : Json) (items : List Json) :
    write e (.arr (item :: items)) = '[' :: (write e item ++ writeItems e items) := rfl

theorem writeItems_cons (item : Json) (items : List Json) :
    writeItems e (item :: items) = ',' :: ' ' :: (write e item ++ writeItems e items) := rfl

theorem write_obj_cons (name : LooseText) (value : Json) (members : List (LooseText × Json)) :
    write e (.obj ((name, value) :: members)) = '{' :: (writeMember e name value ++ writeMembers e members) := by
  rw [writeMember, List.append_assoc]
  rfl

theorem writeMembers_cons (name : LooseText) (value : Json) (members : List (LooseText × Json)) :
    writeMembers e ((name, value) :: members) =
      ',' :: ' ' :: (writeMember e name value ++ writeMembers e members) := by
  rw [writeMember, List.append_assoc]
  rfl

theorem writeItems_ne_nil (items : List Json) : writeItems e items ≠ [] := by
  cases items <;> exact List.cons_ne_nil _ _

theorem writeMembers_ne_nil (members : List (LooseText × Json)) : writeMembers e members ≠ [] := by
  cases members <;> exact List.cons_ne_nil _ _

theorem stops_writeItems (items : List Json) (rest : List Char) : Stops (writeItems e items ++ rest) := by
  cases items with
  | nil => exact stops_cons (by decide) rest
  | cons item items =>
    rw [writeItems_cons]
    exact stops_cons (by decide) _

theorem stops_writeMembers (members : List (LooseText × Json)) (rest : List Char) :
    Stops (writeMembers e members ++ rest) := by
  cases members with
  | nil => exact stops_cons (by decide) rest
  | cons m members =>
    rw [writeMembers_cons]
    exact stops_cons (by decide) _

end

/-! ## First characters -/

/-- A character that a value can start with: it is no blank and closes nothing. -/
def Opens (c : Char) : Prop :=
  isSpace c = false ∧ c ≠ ']' ∧ c ≠ '}' ∧ c ≠ '\uFEFF'

instance (c : Char) : Decidable (Opens c) :=
  inferInstanceAs (Decidable (_ ∧ _ ∧ _ ∧ _))

theorem opens_of_isDigit {c : Char} (h : c.isDigit = true) : Opens c := by
  refine ⟨?_, ?_, ?_, ?_⟩
  · cases hs : isSpace c with
    | false => rfl
    | true =>
      simp only [isSpace, Bool.or_eq_true, beq_iff_eq] at hs
      rcases hs with ((rfl | rfl) | rfl) | rfl <;> cases h
  all_goals
    rintro rfl
    cases h

theorem exists_head_writeInt (n : Int) : ∃ c cs, writeInt n = c :: cs ∧ (c = '-' ∨ c.isDigit = true) := by
  unfold writeInt
  split
  · exact ⟨_, _, rfl, .inl rfl⟩
  · cases h : Nat.toDigits 10 n.natAbs with
    | nil => exact absurd h Nat.toDigits_ne_nil
    | cons c cs => exact ⟨c, cs, rfl, .inr (Text.isDigit_toDigits n.natAbs c (h ▸ List.mem_cons_self))⟩

theorem exists_head_write (e : Escaping) {depth : Nat} {v : Json} (h : Exact depth v) :
    ∃ c cs, write e v = c :: cs ∧ Opens c := by
  cases h with
  | null => exact ⟨_, _, rfl, by decide⟩
  | bool b => cases b <;> exact ⟨_, _, rfl, by decide⟩
  | int n h =>
    obtain ⟨c, cs, hc, rfl | hd⟩ := exists_head_writeInt n
    · exact ⟨_, _, hc, by decide⟩
    · exact ⟨c, cs, hc, opens_of_isDigit hd⟩
  | str s => exact ⟨_, _, rfl, by decide⟩
  | arr items h => cases items <;> exact ⟨_, _, rfl, by decide⟩
  | obj fields keys names values => cases fields <;> exact ⟨_, _, rfl, by decide⟩

theorem skipSpace_of_opens {c : Char} (h : Opens c) (cs : List Char) : skipSpace (c :: cs) = c :: cs :=
  List.dropWhile_cons_of_neg (by simp [h.1])

/-! ## Scalars -/

theorem after?_of_ne {word : String} (front : List Char) {letters : List Char} {a c : Char}
    (hw : word.toList = front ++ a :: letters) (h : a ≠ c) (cs : List Char) :
    after? word (front ++ c :: cs) = none := by
  rw [after?, if_neg]
  rw [List.isPrefixOf_iff_prefix, hw, List.prefix_append_right_inj, List.cons_prefix_cons]
  exact fun e => h e.1

theorem after?_toDigits {word : String × Json} (h : word ∈ words) (n : Nat) (cs : List Char) :
    after? word.1 (Nat.toDigits 10 n ++ cs) = none ∧ after? word.1 ('-' :: (Nat.toDigits 10 n ++ cs)) = none := by
  have hd := Text.isDigit_toDigits n
  cases hn : Nat.toDigits 10 n with
  | nil => exact absurd hn Nat.toDigits_ne_nil
  | cons c ds =>
    have ne {a : Char} (ha : a.isDigit = false) : a ≠ c := by
      rintro rfl
      have := hd a (hn ▸ List.mem_cons_self)
      rw [ha] at this
      cases this
    have head {a : Char} {letters : List Char} (hw : word.1.toList = a :: letters) (ha : a.isDigit = false) :
        after? word.1 (c :: ds ++ cs) = none :=
      after?_of_ne [] hw (ne ha) (ds ++ cs)
    have sign {a : Char} {letters : List Char} (hw : word.1.toList = a :: letters) (ha : a ≠ '-') :
        after? word.1 ('-' :: (c :: ds ++ cs)) = none :=
      after?_of_ne [] hw ha (c :: ds ++ cs)
    simp only [words, List.mem_cons, List.not_mem_nil, or_false] at h
    rcases h with rfl | rfl | rfl | rfl | rfl | rfl
    · exact ⟨head rfl rfl, sign rfl (by decide)⟩
    · exact ⟨head rfl rfl, sign rfl (by decide)⟩
    · exact ⟨head rfl rfl, sign rfl (by decide)⟩
    · exact ⟨head rfl rfl, sign rfl (by decide)⟩
    · exact ⟨head rfl rfl, sign rfl (by decide)⟩
    · exact ⟨head rfl rfl, after?_of_ne ['-'] (a := 'I') rfl (ne rfl) (ds ++ cs)⟩

/-- No word is read where a whole number is written. -/
theorem readScalar_writeInt {n : Int} (h : (Nat.toDigits 10 n.natAbs).length ≤ Text.NumeralTooLong.limit)
    {rest : List Char} (hr : Stops rest) : readScalar (writeInt n ++ rest) = .ok (.int n, rest) := by
  have none (word : String × Json) (hw : word ∈ words) : after? word.1 (writeInt n ++ rest) = none := by
    obtain ⟨plain, negative⟩ := after?_toDigits hw n.natAbs rest
    unfold writeInt
    split
    · exact negative
    · exact plain
  rw [readScalar, List.findSome?_eq_none_iff.2 fun word hw => congrArg (Option.map _) (none word hw)]
  exact readNumber_writeInt hr h

theorem readScalar_null (rest : List Char) : readScalar ("null".toList ++ rest) = .ok (.null, rest) := rfl

theorem readScalar_true (rest : List Char) : readScalar ("true".toList ++ rest) = .ok (.bool true, rest) := rfl

theorem readScalar_false (rest : List Char) : readScalar ("false".toList ++ rest) = .ok (.bool false, rest) := rfl

/-! ## Steps of the reader -/

section
variable (fuel depth : Nat) {c : Char} (cs : List Char)

theorem readValue_of_scalar (h : c ≠ '"' ∧ c ≠ '{' ∧ c ≠ '[') :
    readValue (fuel + 1) depth (c :: cs) = readScalar (c :: cs) := by
  rw [readValue]
  · intro rest e
    cases e
    exact h.1 rfl
  · intro rest e
    cases e
    exact h.2.1 rfl
  · intro rest e
    cases e
    exact h.2.2 rfl

theorem readValue_quote : readValue (fuel + 1) depth ('"' :: cs) =
    (readString cs).map fun (s, rest) => (.str ⟨s⟩, rest) := rfl

theorem readValue_bracket (h : Opens c) : readValue (fuel + 1) (depth + 1) ('[' :: c :: cs) =
    (readItems fuel depth (c :: cs)).map fun (items, rest) => (.arr items, rest) := by
  rw [readValue]
  simp only [skipSpace_of_opens h]
  split
  · rename_i e
    cases e
    exact absurd rfl h.2.1
  · rfl

theorem readValue_brace (h : Opens c) : readValue (fuel + 1) (depth + 1) ('{' :: c :: cs) =
    (readMembers fuel depth (c :: cs)).map fun (members, rest) => (ofMembers members, rest) := by
  rw [readValue]
  simp only [skipSpace_of_opens h]
  split
  · rename_i e
    cases e
    exact absurd rfl h.2.2.1
  · rfl

variable {fuel depth cs} {rest : List Char}

theorem readItems_item {item : Json} (h : readValue fuel depth cs = .ok (item, rest)) :
    readItems (fuel + 1) depth cs =
      match skipSpace rest with
      | ']' :: rest => .ok ([item], rest)
      | ',' :: cs => (readItems fuel depth (skipSpace cs)).map fun (items, rest) => (item :: items, rest)
      | _ => fails .expectedComma := by
  rw [readItems]
  generalize readValue fuel depth cs = reading at h
  subst h
  rfl

theorem readMembers_quote {name : List Symbol} {value : Json} {cs' : List Char}
    (hn : readString cs = .ok (name, ':' :: ' ' :: cs'))
    (hv : readValue fuel depth (skipSpace (' ' :: cs')) = .ok (value, rest)) :
    readMembers (fuel + 1) depth ('"' :: cs) =
      match skipSpace rest with
      | '}' :: rest => .ok ([(⟨name⟩, value)], rest)
      | ',' :: cs =>
        (readMembers fuel depth (skipSpace cs)).map fun (members, rest) => ((⟨name⟩, value) :: members, rest)
      | _ => fails .expectedComma := by
  have colon : skipSpace (':' :: ' ' :: cs') = ':' :: ' ' :: cs' := rfl
  rw [readMembers, hn]
  simp only [colon]
  generalize readValue fuel depth (skipSpace (' ' :: cs')) = reading at hv
  subst hv
  rfl

end

/-! ## Values -/

/-- A value is read from its text, whatever follows it that does not go on with it. -/
def ReadsBack (e : Escaping) (depth : Nat) (v : Json) : Prop :=
  ∀ fuel rest, (write e v).length ≤ fuel → Stops rest → readValue fuel depth (write e v ++ rest) = .ok (v, rest)

theorem exists_fuel {a b : List Char} {fuel : Nat} (hb : b ≠ []) (h : (a ++ b).length ≤ fuel) :
    ∃ left, fuel = left + 1 ∧ a.length ≤ left := by
  have := List.length_pos_iff.2 hb
  rw [List.length_append] at h
  exact ⟨fuel - 1, by omega, by omega⟩

section
variable (e : Escaping) {depth : Nat}

theorem skipSpace_write {v : Json} (h : Exact depth v) (cs : List Char) :
    skipSpace (' ' :: (write e v ++ cs)) = write e v ++ cs := by
  obtain ⟨c, letters, hc, ho⟩ := exists_head_write e h
  rw [hc]
  exact skipSpace_of_opens ho (letters ++ cs)

theorem readItems_write (rest : List Char) (items : List Json) : ∀ (item : Json) (fuel : Nat),
    (∀ v ∈ item :: items, Exact depth v ∧ ReadsBack e depth v) →
    (write e item ++ writeItems e items).length ≤ fuel →
      readItems fuel depth (write e item ++ writeItems e items ++ rest) = .ok (item :: items, rest) := by
  induction items with
  | nil =>
    intro item fuel h hf
    obtain ⟨fuel, rfl, hl⟩ := exists_fuel (writeItems_ne_nil e []) hf
    have back := (h item List.mem_cons_self).2 fuel (writeItems e [] ++ rest) hl (stops_writeItems e [] rest)
    rw [List.append_assoc, readItems_item back]
    rfl
  | cons next items ih =>
    intro item fuel h hf
    obtain ⟨fuel, rfl, hl⟩ := exists_fuel (writeItems_ne_nil e (next :: items)) hf
    obtain ⟨first, others⟩ := List.forall_mem_cons.1 h
    have back := first.2 fuel (writeItems e (next :: items) ++ rest) hl (stops_writeItems e (next :: items) rest)
    have more := ih next fuel others (by
      rw [List.length_append, writeItems_cons, List.length_cons, List.length_cons] at hf
      omega)
    have skipped := skipSpace_write e (others next List.mem_cons_self).1 (writeItems e items ++ rest)
    rw [← List.append_assoc] at skipped
    rw [List.append_assoc, readItems_item back]
    show (readItems fuel depth (skipSpace (' ' :: (write e next ++ writeItems e items ++ rest)))).map _ = _
    rw [skipped, more]
    rfl

theorem length_write_le {e : Escaping} {name : LooseText} {value : Json} {fuel : Nat}
    (h : (writeMember e name value).length ≤ fuel) : (write e value).length ≤ fuel := by
  rw [writeMember, List.length_append, List.length_cons, List.length_cons] at h
  omega

theorem readMembers_member (name : String) {value : Json} (h : Exact depth value) {fuel : Nat} {cs : List Char}
    (hv : readValue fuel depth (write e value ++ cs) = .ok (value, cs)) :
    readMembers (fuel + 1) depth (writeMember e name value ++ cs) =
      match skipSpace cs with
      | '}' :: rest => .ok ([(↑name, value)], rest)
      | ',' :: cs =>
        (readMembers fuel depth (skipSpace cs)).map fun (members, rest) => ((↑name, value) :: members, rest)
      | _ => fails .expectedComma := by
  have hm : writeMember e name value ++ cs = '"' :: ((LooseText.ofString name).symbols.flatMap (writeSymbol e) ++
      '"' :: ':' :: ' ' :: (write e value ++ cs)) := by
    simp [writeMember, writeText]
  have skipped := skipSpace_write e h cs
  rw [hm, readMembers_quote (readString_writeText e name (':' :: ' ' :: (write e value ++ cs)))
    ((congrArg (readValue fuel depth) skipped).trans hv)]

theorem skipSpace_writeMember (name : LooseText) (value : Json) (cs : List Char) :
    skipSpace (' ' :: (writeMember e name value ++ cs)) = writeMember e name value ++ cs :=
  rfl

theorem readMembers_write (rest : List Char) (members : List (LooseText × Json)) :
    ∀ (name : String) (value : Json) (fuel : Nat),
    (∀ m ∈ members, ∃ s : String, m.1 = s) →
    (∀ v ∈ value :: members.map (·.2), Exact depth v ∧ ReadsBack e depth v) →
    (writeMember e name value ++ writeMembers e members).length ≤ fuel →
      readMembers fuel depth (writeMember e name value ++ writeMembers e members ++ rest) =
        .ok ((↑name, value) :: members, rest) := by
  induction members with
  | nil =>
    intro name value fuel _ h hf
    obtain ⟨fuel, rfl, hl⟩ := exists_fuel (writeMembers_ne_nil e []) hf
    obtain ⟨exact, back⟩ := h value List.mem_cons_self
    have read := back fuel (writeMembers e [] ++ rest) (length_write_le hl) (stops_writeMembers e [] rest)
    rw [List.append_assoc, readMembers_member e name exact read]
    rfl
  | cons m members ih =>
    intro name value fuel names h hf
    obtain ⟨fuel, rfl, hl⟩ := exists_fuel (writeMembers_ne_nil e (m :: members)) hf
    obtain ⟨⟨exact, back⟩, others⟩ := List.forall_mem_cons.1 h
    have read := back fuel (writeMembers e (m :: members) ++ rest) (length_write_le hl)
      (stops_writeMembers e (m :: members) rest)
    rw [List.append_assoc, readMembers_member e name exact read]
    obtain ⟨⟨next, hn⟩, names'⟩ := List.forall_mem_cons.1 names
    obtain ⟨key, next'⟩ := m
    obtain rfl : key = LooseText.ofString next := hn
    have more := ih next next' fuel names' others (by
      rw [List.length_append, writeMembers_cons, List.length_cons, List.length_cons] at hf
      omega)
    rw [writeMembers_cons]
    show (readMembers fuel depth (skipSpace (' ' :: (writeMember e next next' ++ writeMembers e members ++ rest)))).map
      _ = _
    rw [List.append_assoc, skipSpace_writeMember, ← List.append_assoc, more]
    rfl

theorem readsBack_of_scalar {v : Json} {c : Char} {cs : List Char} (hc : write e v = c :: cs)
    (h : c ≠ '"' ∧ c ≠ '{' ∧ c ≠ '[')
    (hs : ∀ rest, Stops rest → readScalar (write e v ++ rest) = .ok (v, rest)) : ReadsBack e depth v := by
  intro fuel rest hf hr
  have scalar := hs rest hr
  rw [hc] at hf scalar ⊢
  cases fuel with
  | zero => cases hf
  | succ fuel => exact (readValue_of_scalar fuel depth (cs ++ rest) h).trans scalar

theorem readsBack_int {n : Int} (h : (Nat.toDigits 10 n.natAbs).length ≤ Text.NumeralTooLong.limit) :
    ReadsBack e depth (.int n) := by
  obtain ⟨c, cs, hc, hd⟩ := exists_head_writeInt n
  refine readsBack_of_scalar e hc ?_ fun rest hr => readScalar_writeInt h hr
  rcases hd with rfl | hd
  · decide
  · refine ⟨?_, ?_, ?_⟩ <;> rintro rfl <;> cases hd

theorem readsBack_str (s : String) : ReadsBack e depth (.str s) := by
  intro fuel rest hf _
  cases fuel with
  | zero => cases hf
  | succ fuel =>
    have h : write e (.str s) ++ rest =
        '"' :: ((LooseText.ofString s).symbols.flatMap (writeSymbol e) ++ '"' :: rest) := by
      show writeText e (LooseText.ofString s) ++ rest = _
      simp [writeText]
    rw [h, readValue_quote, readString_writeText]
    rfl

theorem readsBack_arr {items : List Json} (h : ∀ item ∈ items, Exact depth item ∧ ReadsBack e depth item) :
    ReadsBack e (depth + 1) (.arr items) := by
  intro fuel rest hf _
  cases items with
  | nil =>
    cases fuel with
    | zero => cases hf
    | succ fuel => rfl
  | cons item items =>
    obtain ⟨c, cs, hc, ho⟩ := exists_head_write e (h item List.mem_cons_self).1
    rw [write_arr_cons] at hf ⊢
    cases fuel with
    | zero => cases hf
    | succ fuel =>
      have more := readItems_write e rest items item fuel h (Nat.le_of_succ_le_succ hf)
      rw [hc] at more ⊢
      exact (readValue_bracket fuel depth _ ho).trans (congrArg (Except.map _) more)

theorem readsBack_obj {fields : List (LooseText × Json)} (keys : (fields.map (·.1)).Nodup)
    (names : ∀ field ∈ fields, ∃ s : String, field.1 = s)
    (h : ∀ field ∈ fields, Exact depth field.2 ∧ ReadsBack e depth field.2) :
    ReadsBack e (depth + 1) (.obj fields) := by
  intro fuel rest hf _
  cases fields with
  | nil =>
    cases fuel with
    | zero => cases hf
    | succ fuel => rfl
  | cons field fields =>
    obtain ⟨⟨name, hn⟩, names'⟩ := List.forall_mem_cons.1 names
    obtain ⟨key, value⟩ := field
    obtain rfl : key = LooseText.ofString name := hn
    have values : ∀ v ∈ value :: fields.map (·.2), Exact depth v ∧ ReadsBack e depth v := by
      rw [← List.map_cons (f := Prod.snd) (a := ((name : LooseText), value)), List.forall_mem_map]
      exact h
    rw [write_obj_cons] at hf ⊢
    cases fuel with
    | zero => cases hf
    | succ fuel =>
      have more := readMembers_write e rest fields name value fuel names' values (Nat.le_of_succ_le_succ hf)
      rw [← ofMembers_of_nodup keys]
      exact (readValue_brace fuel depth _ (show Opens '"' by decide)).trans (congrArg (Except.map _) more)

end

theorem readValue_write (e : Escaping) {depth : Nat} {v : Json} (h : Exact depth v) : ReadsBack e depth v := by
  induction h with
  | null => exact readsBack_of_scalar e rfl (by decide) fun rest _ => readScalar_null rest
  | bool b =>
    cases b with
    | false => exact readsBack_of_scalar e rfl (by decide) fun rest _ => readScalar_false rest
    | true => exact readsBack_of_scalar e rfl (by decide) fun rest _ => readScalar_true rest
  | int n h => exact readsBack_int e h
  | str s => exact readsBack_str e s
  | arr items h ih => exact readsBack_arr e fun item hi => ⟨h item hi, ih item hi⟩
  | obj fields keys names values ih =>
    exact readsBack_obj e keys names fun field hf => ⟨values field hf, ih field hf⟩

/-! ## Whole texts -/

theorem stops_of_blank {rest : List Char} (h : ∀ c ∈ rest, isSpace c = true) : Stops rest := by
  intro c hc
  have space := h c (List.mem_of_mem_head? hc)
  simp only [isSpace, Bool.or_eq_true, beq_iff_eq] at space
  rcases space with ((rfl | rfl) | rfl) | rfl <;> decide

/-- **A written value is read back**, with whatever blanks behind it. -/
theorem readText_write (e : Escaping) {nesting : Nesting} {v : Json} (h : Exact nesting.reading v) {rest : List Char}
    (blank : ∀ c ∈ rest, isSpace c = true) : readText nesting (write e v ++ rest) = .ok v := by
  obtain ⟨c, cs, hc, ho⟩ := exists_head_write e h
  have skipped : skipSpace (write e v ++ rest) = write e v ++ rest := by
    rw [hc]
    exact skipSpace_of_opens ho (cs ++ rest)
  have mark : (write e v ++ rest).head? ≠ some '\uFEFF' := by
    rw [hc]
    exact fun h => ho.2.2.2 (Option.some.inj h)
  have back := readValue_write e h (2 * (write e v ++ rest).length + 2) rest
    (by rw [List.length_append]; omega) (stops_of_blank blank)
  have ended : skipSpace rest = [] := by
    rw [skipSpace, List.dropWhile_eq_nil_iff]
    exact blank
  simp only [readText, if_neg mark, skipped, back, ended, List.isEmpty_nil, if_true]

/-! ## What is written -/

/-- Every character of the text is written as it is. -/
def Kept (e : Escaping) (cs : List Char) : Prop :=
  ∀ c ∈ cs, e.keeps c = true

section
variable {e : Escaping}

theorem kept_nil : Kept e [] := by
  intro c hc
  cases hc

theorem keeps_of_ascii {c : Char} (h : Escaping.ascii.keeps c = true) : e.keeps c = true := by
  cases e with
  | ascii => exact h
  | raw => exact (Bool.and_eq_true_iff.1 h).1

theorem Kept.cons {c : Char} {cs : List Char} (hc : Escaping.ascii.keeps c = true) (h : Kept e cs) :
    Kept e (c :: cs) :=
  List.forall_mem_cons.2 ⟨keeps_of_ascii hc, h⟩

theorem Kept.append {as bs : List Char} (ha : Kept e as) (hb : Kept e bs) : Kept e (as ++ bs) :=
  List.forall_mem_append.2 ⟨ha, hb⟩

theorem keeps_hexDigit : ∀ n < 16, Escaping.ascii.keeps (Text.hexDigit n) = true := by decide

theorem keeps_of_isDigit {c : Char} (h : c.isDigit = true) : Escaping.ascii.keeps c = true := by
  obtain ⟨low, high⟩ := Bool.and_eq_true_iff.1 h
  have low : 48 ≤ c.toNat := UInt32.le_iff_toNat_le.1 (of_decide_eq_true low)
  have high : c.toNat ≤ 57 := UInt32.le_iff_toNat_le.1 (of_decide_eq_true high)
  refine Bool.and_eq_true_iff.2 ⟨decide_eq_true ?_, decide_eq_true ?_⟩
  · exact Char.le_def.2 (UInt32.le_iff_toNat_le.2 (Nat.le_trans (by decide) low))
  · exact Char.le_def.2 (UInt32.le_iff_toNat_le.2 (Nat.le_trans high (by decide)))

theorem kept_unitEscape (u : Nat) : Kept e (unitEscape u) := by
  have digit (n : Nat) : Escaping.ascii.keeps (Text.hexDigit (n % 16)) = true :=
    keeps_hexDigit (n % 16) (Nat.mod_lt n (by decide))
  exact .cons rfl (.cons rfl (.cons (digit _) (.cons (digit _) (.cons (digit _) (.cons (digit _) kept_nil)))))

theorem kept_writeChar (c : Char) : Kept e (writeChar e c) := by
  unfold writeChar
  split
  · rename_i letter h
    exact .cons rfl (.cons (escaped?_of_shortEscape? h).2.2 kept_nil)
  · split
    · rename_i h
      exact List.forall_mem_singleton.2 h
    · split
      · exact kept_unitEscape _
      · exact (kept_unitEscape _).append (kept_unitEscape _)

theorem kept_writeText (t : LooseText) : Kept e (writeText e t) := by
  refine .cons rfl (.append ?_ (.cons rfl kept_nil))
  intro c hc
  obtain ⟨symbol, -, hs⟩ := List.mem_flatMap.1 hc
  cases symbol with
  | char x => exact kept_writeChar x c hs
  | half offset => exact kept_unitEscape _ c hs

theorem kept_writeInt (n : Int) : Kept e (writeInt n) := by
  have digits : Kept e (Nat.toDigits 10 n.natAbs) := by
    intro c hc
    exact keeps_of_ascii (keeps_of_isDigit (Text.isDigit_toDigits n.natAbs c hc))
  unfold writeInt
  split
  · exact .cons rfl digits
  · exact digits

theorem kept_writeItems (items : List Json) (h : ∀ item ∈ items, Kept e (write e item)) :
    Kept e (writeItems e items) := by
  induction items with
  | nil => exact .cons rfl kept_nil
  | cons item items ih =>
    obtain ⟨first, others⟩ := List.forall_mem_cons.1 h
    rw [writeItems_cons]
    exact .cons rfl (.cons rfl (first.append (ih others)))

theorem kept_writeMember (name : LooseText) {value : Json} (h : Kept e (write e value)) :
    Kept e (writeMember e name value) :=
  (kept_writeText name).append (.cons rfl (.cons rfl h))

theorem kept_writeMembers (members : List (LooseText × Json)) (h : ∀ m ∈ members, Kept e (write e m.2)) :
    Kept e (writeMembers e members) := by
  induction members with
  | nil => exact .cons rfl kept_nil
  | cons m members ih =>
    obtain ⟨first, others⟩ := List.forall_mem_cons.1 h
    rw [writeMembers_cons]
    exact .cons rfl (.cons rfl ((kept_writeMember m.1 first).append (ih others)))

/-- **A written value is one line** of kept characters. -/
theorem kept_write {depth : Nat} {v : Json} (h : Exact depth v) : Kept e (write e v) := by
  induction h with
  | null => exact .cons rfl (.cons rfl (.cons rfl (.cons rfl kept_nil)))
  | bool b =>
    cases b with
    | false => exact .cons rfl (.cons rfl (.cons rfl (.cons rfl (.cons rfl kept_nil))))
    | true => exact .cons rfl (.cons rfl (.cons rfl (.cons rfl kept_nil)))
  | int n _ => exact kept_writeInt n
  | str s => exact kept_writeText s
  | arr items _ ih =>
    cases items with
    | nil => exact .cons rfl (.cons rfl kept_nil)
    | cons item items =>
      obtain ⟨first, others⟩ := List.forall_mem_cons.1 ih
      rw [write_arr_cons]
      exact .cons rfl (first.append (kept_writeItems items others))
  | obj fields _ _ _ ih =>
    cases fields with
    | nil => exact .cons rfl (.cons rfl kept_nil)
    | cons field fields =>
      obtain ⟨first, others⟩ := List.forall_mem_cons.1 ih
      rw [write_obj_cons]
      exact .cons rfl ((kept_writeMember field.1 first).append (kept_writeMembers fields others))

end

end LintServer.Json
