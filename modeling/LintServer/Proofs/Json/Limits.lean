import LintServer.Proofs.Json.RoundTrip
import LintServer.Proofs.Json.Shown

/-!
# Where the reader gives up

A reader leaves an end of its text unread, and what it read can be shown. It gives
up on a text, without telling a flaw of it, only over a run of digits that is too
long or over too many brackets that open (`founded_of_read`). On a number with too
many digits it does (`readText_toDigits_of_long`).
-/

namespace LintServer.Json

/-- A run of this many digits stands in the text. -/
def HasRun (n : Nat) (cs : List Char) : Prop :=
  ∃ ds, ds <:+: cs ∧ ds.length = n ∧ ∀ d ∈ ds, d.isDigit = true

/-- How many brackets open in a text, those within strings counted. -/
def openings (cs : List Char) : Nat :=
  cs.countP fun c => c == '[' || c == '{'

/-- An error that the text gives a reason for, where `depth` compound values may be open. -/
def Founded (depth : Nat) (cs : List Char) : ReadError → Prop
  | .flaw _ => True
  | .tooLong e => Text.NumeralTooLong.limit < e.digits ∧ HasRun e.digits cs
  | .tooDeep _ => depth < openings cs

/-- A reading that gives something with the property `P` and leaves an end of the text, or ends with an error
that is founded. -/
def Sound {α : Type} (P : α → Prop) (depth : Nat) (cs : List Char) : Reading α → Prop
  | .ok (x, rest) => P x ∧ rest <:+ cs
  | .error e => Founded depth cs e

theorem Founded.of_suffix {depth : Nat} {rest cs : List Char} {e : ReadError} (h : Founded depth rest e)
    (suffix : rest <:+ cs) : Founded depth cs e := by
  cases e with
  | flaw f => trivial
  | tooLong e =>
    obtain ⟨long, ds, inside, run⟩ := h
    exact ⟨long, ds, inside.trans suffix.isInfix, run⟩
  | tooDeep e => exact Nat.lt_of_lt_of_le h suffix.sublist.countP_le

theorem Founded.opened {depth : Nat} {cs : List Char} {e : ReadError} (h : Founded depth cs e) {c : Char}
    (bracket : c = '[' ∨ c = '{') : Founded (depth + 1) (c :: cs) e := by
  cases e with
  | flaw f => trivial
  | tooLong e => exact h.of_suffix (List.suffix_cons c cs)
  | tooDeep e =>
    have one : openings (c :: cs) = openings cs + 1 :=
      List.countP_cons_of_pos (by rcases bracket with rfl | rfl <;> rfl)
    show depth + 1 < openings (c :: cs)
    rw [one]
    exact Nat.succ_lt_succ h

section
variable {α β : Type} {P : α → Prop} {Q : β → Prop} {depth : Nat} {rest cs : List Char}

theorem Sound.read {reading : Reading α} (h : Sound P depth cs reading) {x : α} (read : reading = .ok (x, rest)) :
    P x ∧ rest <:+ cs := by
  rw [read] at h
  exact h

theorem Sound.failed {reading : Reading α} (h : Sound P depth cs reading) {e : ReadError}
    (failed : reading = .error e) : Founded depth cs e := by
  rw [failed] at h
  exact h

theorem Sound.of_suffix {reading : Reading α} (h : Sound P depth rest reading) (suffix : rest <:+ cs) :
    Sound P depth cs reading := by
  cases reading with
  | error e => exact Founded.of_suffix h suffix
  | ok result => exact ⟨h.1, h.2.trans suffix⟩

theorem Sound.opened {reading : Reading α} (h : Sound P depth rest reading) (suffix : rest <:+ cs) {c : Char}
    (bracket : c = '[' ∨ c = '{') : Sound P (depth + 1) (c :: cs) reading := by
  cases reading with
  | error e => exact (Founded.of_suffix h suffix).opened bracket
  | ok result => exact ⟨h.1, (h.2.trans suffix).trans (List.suffix_cons c cs)⟩

theorem Sound.map {reading : Reading α} (h : Sound P depth cs reading) {f : α → β} (carries : ∀ x, P x → Q (f x)) :
    Sound Q depth cs (reading.map fun (x, rest) => (f x, rest)) := by
  cases reading with
  | error e => exact h
  | ok result => exact ⟨carries _ h.1, h.2⟩

end

/-! ## Strings -/

theorem suffix_of_pairedLow? {cs rest : List Char} {u : Nat} (h : pairedLow? cs = some (u, rest)) : rest <:+ cs := by
  unfold pairedLow? at h
  split at h
  · rename_i a b c d next cs
    obtain ⟨_, -, same⟩ := Option.map_eq_some_iff.1 h
    cases same
    exact ⟨['\\', 'u', a, b, c, d], rfl⟩
  · cases h

theorem Sound.consSymbol {depth : Nat} {cs : List Char} {reading : Reading (List Symbol)}
    (h : Sound (fun _ => True) depth cs reading) (x : Symbol) : Sound (fun _ => True) depth cs (consSymbol x reading) :=
  h.map fun _ _ => True.intro

theorem sound_readString (depth : Nat) (cs : List Char) : Sound (fun _ => True) depth cs (readString cs) := by
  fun_induction readString cs with
  | case2 cs => exact ⟨True.intro, List.suffix_cons _ cs⟩
  | case5 a b c d next cs u _ low rest pair _ _ ih =>
    have suffix : rest <:+ next :: cs := by
      split at pair
      · exact suffix_of_pairedLow? pair
      · cases pair
    exact (ih.consSymbol _).of_suffix (suffix.trans ⟨['\\', 'u', a, b, c, d], rfl⟩)
  | case6 a b c d next cs u _ _ _ ih => exact (ih.consSymbol _).of_suffix ⟨['\\', 'u', a, b, c, d], rfl⟩
  | case9 e cs _ _ c _ _ ih => exact (ih.consSymbol _).of_suffix ⟨['\\', e], rfl⟩
  | case11 c cs _ _ _ ih => exact (ih.consSymbol _).of_suffix (List.suffix_cons c cs)
  | _ => trivial

/-! ## Numbers and words -/

theorem suffix_fraction (cs : List Char) : (fraction cs).2 <:+ cs := by
  unfold fraction
  split
  · rename_i d cs
    split
    · exact (List.dropWhile_suffix _).trans (List.suffix_cons '.' _)
    · exact List.suffix_rfl
  · exact List.suffix_rfl

theorem suffix_signOf (cs : List Char) : (signOf cs).2 <:+ cs := by
  unfold signOf
  split
  · exact List.suffix_cons _ _
  · exact List.suffix_cons _ _
  · exact List.suffix_rfl

theorem suffix_of_exponent? {cs rest : List Char} {n : Int} (h : exponent? cs = some (n, rest)) : rest <:+ cs := by
  unfold exponent? at h
  split at h
  · rename_i c cs
    split at h
    · dsimp only at h
      split at h
      · cases h
      · cases h
        exact (List.dropWhile_suffix _).trans ((suffix_signOf cs).trans (List.suffix_cons c cs))
    · cases h
  · cases h

theorem spanDigits_spec (cs : List Char) :
    (spanDigits cs).1 ++ (spanDigits cs).2 = cs ∧ ∀ d ∈ (spanDigits cs).1, d.isDigit = true :=
  ⟨List.takeWhile_append_dropWhile, fun _ h => List.mem_takeWhile_imp h⟩

theorem whole?_spec {cs ds rest : List Char} (h : whole? cs = some (ds, rest)) :
    ds ++ rest = cs ∧ ∀ d ∈ ds, d.isDigit = true := by
  unfold whole? at h
  split at h
  · cases h
    exact ⟨rfl, List.forall_mem_singleton.2 rfl⟩
  · rename_i c cs _
    split at h
    · cases h
      exact spanDigits_spec (c :: cs)
    · cases h
  · cases h

theorem short_of_readNumeral {ds : List Char} (run : ∀ d ∈ ds, d.isDigit = true) {n : Nat}
    (h : Text.readNumeral ds = .ok n) : n < 10 ^ Text.NumeralTooLong.limit := by
  unfold Text.readNumeral at h
  split at h
  · rename_i short
    cases h
    exact Nat.lt_of_lt_of_le (Text.digitsValue_lt run) (Nat.pow_le_pow_right (by decide) short)
  · cases h

theorem sound_readNumber (depth : Nat) (cs : List Char) : Sound (Showable (depth + 1)) depth cs (readNumber cs) := by
  unfold readNumber
  split
  rename_i negative digits given
  have suffix : digits <:+ cs := by
    split at given <;> cases given
    · exact List.tail_suffix cs
    · exact List.suffix_rfl
  split
  · trivial
  · rename_i ds rest found
    obtain ⟨joined, run⟩ := whole?_spec found
    have behind : (fraction rest).2 <:+ cs :=
      (suffix_fraction rest).trans ((joined ▸ List.suffix_append ds rest).trans suffix)
    dsimp only
    split
    · rename_i found
      exact ⟨.float _, (suffix_of_exponent? found).trans behind⟩
    · split
      · split
        · rename_i read
          have short := short_of_readNumeral run read
          refine ⟨.int ?_, behind⟩
          cases negative
          · rwa [if_neg Bool.false_ne_true, Int.natAbs_natCast]
          · rwa [if_pos rfl, Int.natAbs_neg, Int.natAbs_natCast]
        · rename_i refused
          obtain ⟨long, same⟩ := Text.digits_of_readNumeral refused
          have inside : ds <:+: cs := (joined ▸ List.infix_append' [] ds rest).trans suffix.isInfix
          exact ⟨long, ds, inside, same, run⟩
      · exact ⟨.float _, behind⟩

theorem showable_of_words {depth : Nat} {word : String × Json} (h : word ∈ words) : Showable (depth + 1) word.2 := by
  simp only [words, List.mem_cons, List.not_mem_nil, or_false] at h
  rcases h with rfl | rfl | rfl | rfl | rfl | rfl
  · exact .null
  · exact .bool true
  · exact .bool false
  · exact .float _
  · exact .float _
  · exact .float _

theorem sound_readScalar (depth : Nat) (cs : List Char) : Sound (Showable (depth + 1)) depth cs (readScalar cs) := by
  unfold readScalar
  split
  · rename_i reading found
    obtain ⟨⟨word, value⟩, listed, found⟩ := List.exists_of_findSome?_eq_some found
    obtain ⟨rest, behind, same⟩ := Option.map_eq_some_iff.1 found
    unfold after? at behind
    split at behind
    · cases behind
      cases same
      exact ⟨showable_of_words listed, List.drop_suffix _ cs⟩
    · cases behind
  · exact sound_readNumber depth cs

/-! ## Values -/

/-- Items that can be shown as deep as this. -/
def ShowableItems (depth : Nat) (items : List Json) : Prop :=
  ∀ item ∈ items, Showable depth item

def ShowableMembers (depth : Nat) (members : List (LooseText × Json)) : Prop :=
  ∀ m ∈ members, Showable depth m.2

theorem suffix_skipSpace (cs : List Char) : skipSpace cs <:+ cs :=
  List.dropWhile_suffix isSpace

theorem suffix_of_skipSpace {c : Char} {rest cs : List Char} (h : skipSpace cs = c :: rest) : rest <:+ cs :=
  (List.suffix_cons c rest).trans (h ▸ suffix_skipSpace cs)

-- What holds with some fuel holds with one unit more; the values and what they consist of go together.
section
variable {fuel : Nat} (values : ∀ depth cs, Sound (Showable (depth + 1)) depth cs (readValue fuel depth cs))
  (members : ∀ depth cs, Sound (ShowableMembers (depth + 1)) depth cs (readMembers fuel depth cs))
  (items : ∀ depth cs, Sound (ShowableItems (depth + 1)) depth cs (readItems fuel depth cs))

include members items in
theorem sound_readValue_succ (depth : Nat) (cs : List Char) :
    Sound (Showable (depth + 1)) depth cs (readValue (fuel + 1) depth cs) := by
  rw [readValue.eq_def]
  dsimp only
  split
  · rename_i cs
    exact ((sound_readString depth cs).map fun s _ => Showable.str ⟨s⟩).of_suffix (List.suffix_cons '"' cs)
  · rename_i cs
    cases depth with
    | zero => exact List.countP_pos_iff.2 ⟨'{', List.mem_cons_self, rfl⟩
    | succ depth =>
      dsimp only
      split
      · rename_i closed
        exact ⟨.obj fun _ hm => absurd hm List.not_mem_nil, (suffix_of_skipSpace closed).trans (List.suffix_cons '{' cs)⟩
      · exact ((members depth (skipSpace cs)).map fun _ => showable_ofMembers).opened (suffix_skipSpace cs) (.inr rfl)
  · rename_i cs
    cases depth with
    | zero => exact List.countP_pos_iff.2 ⟨'[', List.mem_cons_self, rfl⟩
    | succ depth =>
      dsimp only
      split
      · rename_i closed
        exact ⟨.arr fun _ hj => absurd hj List.not_mem_nil, (suffix_of_skipSpace closed).trans (List.suffix_cons '[' cs)⟩
      · exact ((items depth (skipSpace cs)).map fun _ => .arr).opened (suffix_skipSpace cs) (.inl rfl)
  · exact sound_readScalar depth _

include values items in
theorem sound_readItems_succ (depth : Nat) (cs : List Char) :
    Sound (ShowableItems (depth + 1)) depth cs (readItems (fuel + 1) depth cs) := by
  rw [readItems.eq_def]
  dsimp only
  split
  · rename_i failed
    exact (values depth cs).failed failed
  · rename_i item behind read
    obtain ⟨shown, read⟩ := (values depth cs).read read
    split
    · rename_i closed
      exact ⟨List.forall_mem_singleton.2 shown, (suffix_of_skipSpace closed).trans read⟩
    · rename_i rest comma
      exact ((items depth (skipSpace rest)).map (Q := ShowableItems (depth + 1)) fun _ others =>
        List.forall_mem_cons.2 ⟨shown, others⟩).of_suffix
          ((suffix_skipSpace rest).trans ((suffix_of_skipSpace comma).trans read))
    · trivial

include values members in
theorem sound_readMembers_succ (depth : Nat) (cs : List Char) :
    Sound (ShowableMembers (depth + 1)) depth cs (readMembers (fuel + 1) depth cs) := by
  rw [readMembers.eq_def]
  dsimp only
  split
  · rename_i cs
    refine Sound.of_suffix ?_ (List.suffix_cons '"' cs)
    split
    · rename_i failed
      exact (sound_readString depth cs).failed failed
    · rename_i name named read
      have named := ((sound_readString depth cs).read read).2
      split
      · rename_i colon
        have before := (suffix_skipSpace _).trans ((suffix_of_skipSpace colon).trans named)
        have value := (values depth _).of_suffix before
        split
        · rename_i failed
          exact value.failed failed
        · rename_i read
          obtain ⟨shown, read⟩ := value.read read
          split
          · rename_i closed
            exact ⟨List.forall_mem_singleton.2 shown, (suffix_of_skipSpace closed).trans read⟩
          · rename_i rest comma
            exact ((members depth (skipSpace rest)).map (Q := ShowableMembers (depth + 1)) fun _ others =>
              List.forall_mem_cons.2 ⟨shown, others⟩).of_suffix
                ((suffix_skipSpace rest).trans ((suffix_of_skipSpace comma).trans read))
          · trivial
      · trivial
  · trivial

end

theorem sound_read (fuel : Nat) :
    (∀ depth cs, Sound (Showable (depth + 1)) depth cs (readValue fuel depth cs)) ∧
      (∀ depth cs, Sound (ShowableMembers (depth + 1)) depth cs (readMembers fuel depth cs)) ∧
      ∀ depth cs, Sound (ShowableItems (depth + 1)) depth cs (readItems fuel depth cs) := by
  induction fuel with
  | zero => exact ⟨fun _ _ => True.intro, fun _ _ => True.intro, fun _ _ => True.intro⟩
  | succ fuel ih =>
    obtain ⟨values, members, items⟩ := ih
    exact ⟨sound_readValue_succ members items, sound_readMembers_succ values members, sound_readItems_succ values items⟩

section
variable {nesting : Nesting} {cs : List Char}

/-- A text is not read for a flaw of it, for a run of digits that is too long, or for too many brackets that open. -/
theorem founded_of_read {e : ReadError} (h : readText nesting cs = .error e) : Founded nesting.reading cs e := by
  unfold readText at h
  split at h
  · cases h
    trivial
  · have sound := (sound_read (2 * cs.length + 2)).1 nesting.reading (skipSpace cs)
    split at h
    · rename_i failed
      cases h
      exact (sound.failed failed).of_suffix (suffix_skipSpace cs)
    · split at h
      · cases h
      · cases h
        trivial

/-- A value is shown no deeper than one level beyond the brackets that may be open where it is read. -/
theorem showable_of_read {value : Json} (h : readText nesting cs = .ok value) :
    Showable (nesting.reading + 1) value := by
  unfold readText at h
  split at h
  · cases h
  · split at h
    · cases h
    · rename_i read
      split at h
      · cases h
        exact (((sound_read (2 * cs.length + 2)).1 nesting.reading (skipSpace cs)).read read).1
      · cases h

end

/-! ## Long numbers -/

section
variable {n : Nat} (long : Text.NumeralTooLong.limit < (Nat.toDigits 10 n).length)
include long

theorem readScalar_toDigits_of_long :
    readScalar (Nat.toDigits 10 n) = .error (.tooLong ⟨(Nat.toDigits 10 n).length⟩) := by
  have stops : Stops [] := nofun
  have whole := whole?_toDigits stops n
  have none (word : String × Json) (hw : word ∈ words) : after? word.1 (Nat.toDigits 10 n) = none := by
    have := (after?_toDigits hw n []).1
    rwa [List.append_nil] at this
  have unsigned : (Nat.toDigits 10 n).head? ≠ some '-' := fun e =>
    absurd (Text.isDigit_toDigits n '-' (List.mem_of_mem_head? e)) (by decide)
  rw [List.append_nil] at whole
  rw [readScalar, List.findSome?_eq_none_iff.2 fun word hw => congrArg (Option.map _) (none word hw)]
  unfold readNumber
  simp only [if_neg unsigned, whole, fraction_of_stops stops, exponent?_of_stops stops, List.isEmpty_nil, if_true,
    Text.readNumeral, if_neg (Nat.not_le_of_lt long)]

theorem readText_toDigits_of_long (nesting : Nesting) :
    readText nesting (Nat.toDigits 10 n) = .error (.tooLong ⟨(Nat.toDigits 10 n).length⟩) := by
  have scalar := readScalar_toDigits_of_long long
  have digits := Text.isDigit_toDigits n
  obtain ⟨c, cs, shape⟩ := List.exists_cons_of_ne_nil (Nat.toDigits_ne_nil (b := 10) (n := n))
  rw [shape] at digits scalar ⊢
  have digit := digits c List.mem_cons_self
  have opens := opens_of_isDigit digit
  have plain : c ≠ '"' ∧ c ≠ '{' ∧ c ≠ '[' := by
    refine ⟨?_, ?_, ?_⟩ <;> rintro rfl <;> cases digit
  have unmarked : (c :: cs).head? ≠ some '\uFEFF' := fun e => opens.2.2.2 (Option.some.inj e)
  rw [readText, if_neg unmarked, skipSpace_of_opens opens, readValue_of_scalar _ _ _ plain, scalar]

end

end LintServer.Json
