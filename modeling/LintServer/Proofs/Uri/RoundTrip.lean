import LintServer.Proofs.Path.Normal
import LintServer.Proofs.Text.Octets
import LintServer.Uri.Local
import Mathlib.Data.List.TakeWhile

/-!
# Paths in URIs

The octets of an absolute path, percent-encoded behind `file://`, name that path again:
nothing of what a URI is cut at is left in them, and what decoding brings back is cut at
slashes only (`toPath?_encoded`).
-/

namespace LintServer.Uri

open Text (hexValue?)

/-! ## Percent encoding -/

namespace Percent

/-- ASCII letters, digits and the marks that stand for themselves. -/
def isPlain (c : Char) : Bool :=
  c.isAlphanum || ['_', '.', '-', '~', '/'].contains c

/-- A hexadecimal digit in either case. -/
def IsHexDigit (n : Nat) (c : Char) : Prop :=
  c = n.digitChar ∨ c = n.digitChar.toUpper

/-- Texts that stand for these octets, with every octet encoded that stands for no plain character. -/
inductive Encodes : List UInt8 → List Char → Prop
  | nil : Encodes [] []
  | plain {b : UInt8} {bs : List UInt8} {cs : List Char} (h : isPlain (Char.ofNat b.toNat) = true)
      (rest : Encodes bs cs) : Encodes (b :: bs) (Char.ofNat b.toNat :: cs)
  | coded {b : UInt8} {bs : List UInt8} {x y : Char} {cs : List Char} (h : isPlain (Char.ofNat b.toNat) = false)
      (high : IsHexDigit (b.toNat / 16) x) (low : IsHexDigit (b.toNat % 16) y) (rest : Encodes bs cs) :
      Encodes (b :: bs) ('%' :: x :: y :: cs)

theorem hexValue?_of_isHexDigit {n : Nat} (h : n < 16) {c : Char} (digit : IsHexDigit n c) : hexValue? c = some n := by
  have values : ∀ n < 16, hexValue? n.digitChar = some n ∧ hexValue? n.digitChar.toUpper = some n := by decide
  rcases digit with rfl | rfl
  · exact (values n h).1
  · exact (values n h).2

theorem isPlain_of_isHexDigit {n : Nat} (h : n < 16) {c : Char} (digit : IsHexDigit n c) : isPlain c = true := by
  have plain : ∀ n < 16, isPlain n.digitChar = true ∧ isPlain n.digitChar.toUpper = true := by decide
  rcases digit with rfl | rfl
  · exact (plain n h).1
  · exact (plain n h).2

theorem toNat_ofNat_octet (b : UInt8) : (Char.ofNat b.toNat).toNat = b.toNat := by
  have small := b.toNat_lt
  rw [Char.ofNat, dif_pos (.inl (by omega))]
  rfl

theorem isAscii_of_isPlain {c : Char} (h : isPlain c = true) : isAscii c = true := by
  refine decide_eq_true ?_
  have below : ∀ last : Char, last.toNat < 128 → c.val ≤ last.val → c.toNat < 128 := fun last small le =>
    Nat.lt_of_le_of_lt (UInt32.le_iff_toNat_le.1 le) small
  rcases Bool.or_eq_true_iff.1 h with word | mark
  · rcases Bool.or_eq_true_iff.1 word with letter | digit
    · rcases Bool.or_eq_true_iff.1 letter with upper | lower
      · exact below 'Z' (by decide) (of_decide_eq_true upper).2
      · exact below 'z' (by decide) (of_decide_eq_true (Bool.and_eq_true_iff.1 lower).2)
    · exact below '9' (by decide) (of_decide_eq_true (Bool.and_eq_true_iff.1 digit).2)
  · simp only [List.contains_iff_mem, List.mem_cons, List.not_mem_nil, or_false] at mark
    rcases mark with rfl | rfl | rfl | rfl | rfl <;> decide

/-- What a text that encodes octets is made of. -/
theorem Encodes.mem {bs : List UInt8} {cs : List Char} (h : Encodes bs cs) {c : Char} (inside : c ∈ cs) :
    isPlain c = true ∨ c = '%' := by
  induction h with
  | nil => cases inside
  | plain plain _ ih =>
    rcases List.mem_cons.1 inside with rfl | inside
    · exact .inl plain
    · exact ih inside
  | @coded b _ x y _ _ high low _ ih =>
    have small := b.toNat_lt
    rcases List.mem_cons.1 inside with rfl | inside
    · exact .inr rfl
    rcases List.mem_cons.1 inside with rfl | inside
    · exact .inl (isPlain_of_isHexDigit (by omega) high)
    rcases List.mem_cons.1 inside with rfl | inside
    · exact .inl (isPlain_of_isHexDigit (by omega) low)
    · exact ih inside

theorem octets_cons_of_ne {c : Char} (h : c ≠ '%') (cs : List Char) :
    octets (c :: cs) = UInt8.ofNat c.toNat :: octets cs := by
  match cs with
  | [] => rfl
  | [_] => rfl
  | a :: b :: cs =>
    rw [octets, beq_false_of_ne h]

theorem octets_coded {x y : Char} {m n : Nat} (high : hexValue? x = some m) (low : hexValue? y = some n)
    (cs : List Char) : octets ('%' :: x :: y :: cs) = UInt8.ofNat (16 * m + n) :: octets cs := by
  rw [octets, high, low]
  rfl

theorem octets_of_encodes {bs : List UInt8} {cs : List Char} (h : Encodes bs cs) : octets cs = bs := by
  induction h with
  | nil => rfl
  | @plain b _ _ plain _ ih =>
    have other : Char.ofNat b.toNat ≠ '%' := fun same => by
      rw [same] at plain
      cases plain
    rw [octets_cons_of_ne other, ih, toNat_ofNat_octet, UInt8.ofNat_toNat]
  | @coded b _ _ _ _ _ high low _ ih =>
    have small := b.toNat_lt
    rw [octets_coded (hexValue?_of_isHexDigit (by omega) high) (hexValue?_of_isHexDigit (by omega) low), ih,
      Nat.div_add_mod, UInt8.ofNat_toNat]

/-- A text in ASCII is decoded in one run. -/
theorem decodeFrom_of_ascii {cs : List Char} (h : ∀ c ∈ cs, isAscii c = true) (run : List Char) :
    decodeFrom run (cs.map .char) = (Text.Utf8.decode (octets (run.reverse ++ cs))).map .char := by
  induction cs generalizing run with
  | nil => rw [List.map_nil, decodeFrom, decodeRun, List.append_nil]
  | cons c cs ih =>
    obtain ⟨first, rest⟩ := List.forall_mem_cons.1 h
    rw [List.map_cons, decodeFrom, if_pos first, ih rest, List.reverse_cons, List.append_assoc, List.singleton_append]

theorem decode_of_encodes {bs : List UInt8} {cs : List Char} (h : Encodes bs cs) :
    decode (cs.map .char) = (Text.Utf8.decode bs).map .char := by
  have ascii : ∀ c ∈ cs, isAscii c = true := fun c inside => by
    rcases h.mem inside with plain | rfl
    · exact isAscii_of_isPlain plain
    · rfl
  rw [decode, decodeFrom_of_ascii ascii, List.reverse_nil, List.nil_append, octets_of_encodes h]

end Percent

/-! ## Taking a URI apart -/

open Percent (Encodes isPlain)

section
variable {cs : List Char} (h : ∀ c ∈ cs, isPlain c = true ∨ c = '%')
include h

theorem notMem_of_encoded {c : Char} (cut : isPlain c = false) (other : c ≠ '%') : .char c ∉ cs.map Symbol.char := by
  intro inside
  obtain ⟨d, inside, same⟩ := List.mem_map.1 inside
  cases same
  rcases h c inside with plain | same
  · cases cut.symm.trans plain
  · exact other same

theorem clean_file :
    clean (("file:///".toList ++ cs).map .char) = ("file:///".toList ++ cs).map .char := by
  have kept : ∀ u ∈ ("file:///".toList ++ cs).map Symbol.char,
      (u != .char '\t' && u != .char '\r' && u != .char '\n') = true := by
    intro u inside
    rw [List.map_append] at inside
    rcases List.mem_append.1 inside with inside | inside
    · have front : ("file:///".toList.map Symbol.char).all
          (fun u => u != .char '\t' && u != .char '\r' && u != .char '\n') = true := by decide
      exact List.all_eq_true.1 front u inside
    · simp only [Bool.and_eq_true, bne_iff_ne]
      refine ⟨⟨?_, ?_⟩, ?_⟩ <;> rintro rfl
      all_goals exact notMem_of_encoded h rfl (by decide) inside
  exact List.filter_eq_self.2 kept

theorem pathOf_encoded : pathOf (cs.map .char) = cs.map .char := by
  refine List.takeWhile_eq_self_iff.2 fun u inside => ?_
  simp only [Bool.and_eq_true, bne_iff_ne]
  constructor <;> rintro rfl
  all_goals exact notMem_of_encoded h rfl (by decide) inside

/-- The whole of an encoded path behind two slashes is the path of the URI. -/
theorem split_file :
    split (("file:///".toList ++ cs).map .char) = .ok ⟨"file".toList, [], ('/' :: cs).map .char⟩ := by
  have whole : pathOf (('/' :: cs).map .char) = ('/' :: cs).map .char :=
    congrArg (Symbol.char '/' :: ·) (pathOf_encoded h)
  unfold split
  rw [clean_file h]
  show Except.ok (Parts.mk "file".toList [] (pathOf (('/' :: cs).map .char))) = _
  rw [whole]

end

theorem dropDriveSlash_of_ne {cs : List Char} (h : cs[2]? ≠ some ':') :
    dropDriveSlash (cs.map .char) = cs.map .char := by
  have other : (cs.map Symbol.char)[2]? ≠ some (.char ':') := fun same => by
    rw [List.getElem?_map] at same
    obtain ⟨c, third, same⟩ := Option.map_eq_some_iff.1 same
    cases same
    exact h third
  unfold dropDriveSlash
  split
  · rename_i shape
    rw [shape] at other
    exact absurd rfl other
  · rfl

theorem filePath_of_local (scheme : List Char) (path : List Symbol) :
    filePath ⟨scheme, [], path⟩ = Path.ofSymbols (dropDriveSlash (Percent.decode path)) := rfl

/-! ## Absolute paths -/

theorem exists_slash_of_encodes {cs encoded : List Char} (h : Encodes (Text.Utf8.encode ('/' :: cs)) encoded) :
    ∃ rest, encoded = '/' :: rest := by
  have octets : Text.Utf8.encode ('/' :: cs) = 0x2F :: Text.Utf8.encode cs := rfl
  rw [octets] at h
  cases h with
  | plain _ rest => exact ⟨_, rfl⟩
  | coded coded => cases coded

theorem toPath?_file {cs encoded : List Char} (h : Encodes (Text.Utf8.encode ('/' :: cs)) encoded)
    (noDrive : ('/' :: cs)[2]? ≠ some ':') :
    toPath? ("file://" ++ String.ofList encoded : String) = .ok (some (Path.ofSymbols (('/' :: cs).map .char))) := by
  obtain ⟨rest, rfl⟩ := exists_slash_of_encodes h
  have read : Percent.decode (('/' :: rest).map .char) = ('/' :: cs).map .char := by
    rw [Percent.decode_of_encodes h, Text.Utf8.decode_encode]
  have encoded : ∀ c ∈ rest, isPlain c = true ∨ c = '%' := fun c inside => h.mem (List.mem_cons_of_mem _ inside)
  have text : LooseText.ofString ("file://" ++ String.ofList ('/' :: rest)) =
      ⟨("file:///".toList ++ rest).map .char⟩ := by
    refine LooseText.ext ?_
    have behind : (String.ofList ('/' :: rest)).toList = '/' :: rest := String.toList_ofList
    rw [LooseText.symbols_ofString, String.toList_append, behind]
    rfl
  have begins : isFile ⟨("file:///".toList ++ rest).map .char⟩ = true := rfl
  rw [text, toPath?]
  dsimp only [LooseText.isEmpty]
  rw [split_file encoded]
  dsimp only
  rw [begins, filePath_of_local, read, dropDriveSlash_of_ne noDrive]
  rfl

theorem ofString_intercalate (sep : String) (ss : List String) :
    LooseText.ofString (sep.intercalate ss) = LooseText.intercalate sep (ss.map .ofString) := by
  refine LooseText.ext ?_
  rw [LooseText.symbols_ofString, String.toList_intercalate]
  show _ = (sep.toList.map Symbol.char).intercalate ((ss.map .ofString).map LooseText.symbols)
  induction ss with
  | nil => rfl
  | cons s ss ih =>
    cases ss with
    | nil => simp only [List.map_cons, List.map_nil, List.intercalate_singleton, LooseText.symbols_ofString]
    | cons t ss =>
      simp only [List.map_cons, List.intercalate_cons_cons, List.map_append] at ih ⊢
      rw [ih]
      rfl

theorem text_of_strings (parts : List String) :
    Path.text ⟨.slash, parts.map .ofString⟩ = ("/" ++ "/".intercalate parts : String) := by
  rw [LooseText.ofString_append, ofString_intercalate]
  rfl

/-- **A path is read back from its URI.** Behind `file://` the percent-encoded octets of an absolute path name that
path, if its third character is no colon. -/
theorem toPath?_encoded {parts : List String} (proper : ∀ part ∈ parts, Path.IsPart part)
    (noDrive : ("/" ++ "/".intercalate parts).toList[2]? ≠ some ':') {encoded : List Char}
    (h : Encodes (Text.Utf8.encode ("/" ++ "/".intercalate parts).toList) encoded) :
    toPath? ("file://" ++ String.ofList encoded : String) = .ok (some ⟨.slash, parts.map .ofString⟩) ∧
      Path.text ⟨.slash, parts.map .ofString⟩ = ("/" ++ "/".intercalate parts : String) := by
  have text : ("/" ++ "/".intercalate parts).toList = '/' :: ['/'].intercalate (parts.map String.toList) := by
    rw [String.toList_append, String.toList_intercalate]
    rfl
  have written := text_of_strings parts
  have read : Path.ofText ("/" ++ "/".intercalate parts : String) = ⟨.slash, parts.map .ofString⟩ := by
    rw [← written]
    exact Path.ofText_text (p := ⟨.slash, parts.map .ofString⟩) (List.forall_mem_map.2 proper)
  refine ⟨?_, written⟩
  rw [Path.ofText, LooseText.symbols_ofString, text] at read
  rw [text] at noDrive h
  rw [toPath?_file h noDrive, read]

/-- A part of two dots, a character beyond ASCII and a delimiter, with digits in both cases. -/
theorem toPath?_encoded_delimiter :
    (∀ part ∈ ["..", "é?"], Path.IsPart (.ofString part)) ∧
      ("/" ++ "/".intercalate ["..", "é?"]).toList[2]? ≠ some ':' ∧
      Encodes (Text.Utf8.encode ("/" ++ "/".intercalate ["..", "é?"]).toList) "/../%c3%A9%3f".toList ∧
      toPath? ("file://" ++ String.ofList "/../%c3%A9%3f".toList : String) =
        .ok (some ⟨.slash, ["..", "é?"]⟩) := by
  have proper : ∀ part ∈ ["..", "é?"], Path.IsPart (.ofString part) := by simp [Path.IsPart]
  have noDrive : ("/" ++ "/".intercalate ["..", "é?"]).toList[2]? ≠ some ':' := by decide
  have octets : Text.Utf8.encode ("/" ++ "/".intercalate ["..", "é?"]).toList =
      [0x2F, 0x2E, 0x2E, 0x2F, 0xC3, 0xA9, 0x3F] := by decide
  have written : Encodes [0x2F, 0x2E, 0x2E, 0x2F, 0xC3, 0xA9, 0x3F] "/../%c3%A9%3f".toList :=
    .plain rfl <| .plain rfl <| .plain rfl <| .plain rfl <| .coded rfl (.inl rfl) (.inl rfl) <|
      .coded rfl (.inr rfl) (.inr rfl) <| .coded rfl (.inl rfl) (.inl rfl) .nil
  rw [← octets] at written
  exact ⟨proper, noDrive, written, (toPath?_encoded proper noDrive written).1⟩

end LintServer.Uri
