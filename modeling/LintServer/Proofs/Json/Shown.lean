import LintServer.Json.Display
import Mathlib.Algebra.Order.Ring.Nat

/-!
# Values that can be shown

A value is shown if it is not nested too deep and no whole number in it has too many
digits (`shown_ok_iff`).
-/

namespace LintServer.Json

/-- A value that is at most as many values deep, itself counted, and holds no number that is too long. -/
inductive Showable : Nat → Json → Prop
  | null {depth : Nat} : Showable (depth + 1) .null
  | bool {depth : Nat} (b : Bool) : Showable (depth + 1) (.bool b)
  | int {depth : Nat} {n : Int} (h : n.natAbs < 10 ^ Text.NumeralTooLong.limit) : Showable (depth + 1) (.int n)
  | float {depth : Nat} (x : Double) : Showable (depth + 1) (.float x)
  | str {depth : Nat} (s : LooseText) : Showable (depth + 1) (.str s)
  | arr {depth : Nat} {items : List Json} (h : ∀ item ∈ items, Showable depth item) :
      Showable (depth + 1) (.arr items)
  | obj {depth : Nat} {members : List (LooseText × Json)} (h : ∀ m ∈ members, Showable depth m.2) :
      Showable (depth + 1) (.obj members)

theorem Showable.of_arr {depth : Nat} {items : List Json} (h : Showable (depth + 1) (.arr items)) :
    ∀ item ∈ items, Showable depth item := by
  cases h
  assumption

theorem Showable.of_obj {depth : Nat} {members : List (LooseText × Json)} (h : Showable (depth + 1) (.obj members)) :
    ∀ m ∈ members, Showable depth m.2 := by
  cases h
  assumption

theorem showInt_ok_iff (n : Int) : (∃ text, showInt n = .ok text) ↔ n.natAbs < 10 ^ Text.NumeralTooLong.limit := by
  rw [← Nat.length_toDigits_le_iff (by decide) (by decide), showInt]
  split
  · rename_i short
    exact ⟨fun _ => short, fun _ => ⟨_, rfl⟩⟩
  · rename_i long
    exact ⟨fun ⟨_, e⟩ => (nomatch e), fun short => absurd short long⟩

theorem exists_map_ok_iff {α β ε : Type} (x : Except ε α) (f : α → β) :
    (∃ b, x.map f = .ok b) ↔ ∃ a, x = .ok a := by
  cases x with
  | error e => exact ⟨fun ⟨_, h⟩ => (nomatch h), fun ⟨_, h⟩ => (nomatch h)⟩
  | ok a => exact ⟨fun _ => ⟨a, rfl⟩, fun _ => ⟨f a, rfl⟩⟩

-- A value, its items and its members are shown by one recursion, so the three go together.
mutual

theorem shown_ok_iff : ∀ (value : Json) (depth : Nat), (∃ text, value.shown depth = .ok text) ↔ Showable depth value
  | value, 0 => by
    rw [shown]
    exact ⟨fun ⟨_, h⟩ => (nomatch h), fun h => (nomatch h)⟩
  | .null, _ + 1 => ⟨fun _ => .null, fun _ => ⟨_, rfl⟩⟩
  | .bool true, _ + 1 => ⟨fun _ => .bool true, fun _ => ⟨_, rfl⟩⟩
  | .bool false, _ + 1 => ⟨fun _ => .bool false, fun _ => ⟨_, rfl⟩⟩
  | .int n, _ + 1 => (showInt_ok_iff n).trans ⟨.int, fun h => by cases h; assumption⟩
  | .float x, _ + 1 => ⟨fun _ => .float x, fun _ => ⟨_, rfl⟩⟩
  | .str s, _ + 1 => ⟨fun _ => .str s, fun _ => ⟨_, rfl⟩⟩
  | .arr items, depth + 1 => by
    rw [shown, exists_map_ok_iff, shownItems_ok_iff items depth]
    exact ⟨.arr, Showable.of_arr⟩
  | .obj members, depth + 1 => by
    rw [shown, exists_map_ok_iff, shownMembers_ok_iff members depth]
    exact ⟨.obj, Showable.of_obj⟩

theorem shownItems_ok_iff : ∀ (items : List Json) (depth : Nat),
    (∃ texts, shownItems items depth = .ok texts) ↔ ∀ item ∈ items, Showable depth item
  | [], _ => ⟨fun _ => nofun, fun _ => ⟨[], rfl⟩⟩
  | item :: items, depth => by
    rw [List.forall_mem_cons, ← shown_ok_iff item depth, ← shownItems_ok_iff items depth, shownItems]
    cases item.shown depth with
    | error e => exact ⟨fun ⟨_, h⟩ => (nomatch h), fun ⟨⟨_, h⟩, _⟩ => (nomatch h)⟩
    | ok text =>
      rw [exists_map_ok_iff]
      exact ⟨fun h => ⟨⟨text, rfl⟩, h⟩, And.right⟩

theorem shownMembers_ok_iff : ∀ (members : List (LooseText × Json)) (depth : Nat),
    (∃ texts, shownMembers members depth = .ok texts) ↔ ∀ m ∈ members, Showable depth m.2
  | [], _ => ⟨fun _ => nofun, fun _ => ⟨[], rfl⟩⟩
  | (name, value) :: members, depth => by
    rw [List.forall_mem_cons, ← shown_ok_iff value depth, ← shownMembers_ok_iff members depth, shownMembers]
    cases value.shown depth with
    | error e => exact ⟨fun ⟨_, h⟩ => (nomatch h), fun ⟨⟨_, h⟩, _⟩ => (nomatch h)⟩
    | ok text =>
      rw [exists_map_ok_iff]
      exact ⟨fun h => ⟨⟨text, rfl⟩, h⟩, And.right⟩

end

theorem Showable.mono {depth more : Nat} {value : Json} (h : Showable depth value) (le : depth ≤ more) :
    Showable more value := by
  induction depth generalizing more value with
  | zero => cases h
  | succ depth ih =>
    cases more with
    | zero => exact absurd le (Nat.not_succ_le_zero depth)
    | succ more =>
      have le := Nat.le_of_succ_le_succ le
      cases h with
      | null => exact .null
      | bool b => exact .bool b
      | int h => exact .int h
      | float x => exact .float x
      | str s => exact .str s
      | arr h => exact .arr fun item inside => ih (h item inside) le
      | obj h => exact .obj fun m inside => ih (h m inside) le

/-! ## Objects -/

theorem showable_of_field? {depth : Nat} {fields : List (LooseText × Json)} {key : LooseText} {value : Json}
    (h : Showable (depth + 1) (.obj fields)) (found : field? key fields = some value) : Showable depth value := by
  obtain ⟨before, behind, rfl, -⟩ := List.lookup_eq_some_iff.1 found
  exact h.of_obj (key, value) (List.mem_append_right _ List.mem_cons_self)

theorem mem_setField {key : LooseText} {value : Json} {fields : List (LooseText × Json)} {m : LooseText × Json}
    (h : m ∈ setField key value fields) : m.2 = value ∨ m ∈ fields := by
  induction fields with
  | nil => exact .inl (congrArg Prod.snd (List.mem_singleton.1 h))
  | cons field fields ih =>
    rw [setField] at h
    split at h
    · rcases List.mem_cons.1 h with rfl | h
      · exact .inl rfl
      · exact .inr (List.mem_cons_of_mem _ h)
    · rcases List.mem_cons.1 h with rfl | h
      · exact .inr List.mem_cons_self
      · exact (ih h).imp_right (List.mem_cons_of_mem _)

theorem showable_ofMembers {depth : Nat} {members : List (LooseText × Json)}
    (h : ∀ m ∈ members, Showable depth m.2) : Showable (depth + 1) (ofMembers members) := by
  refine .obj ?_
  have kept : ∀ fields : List (LooseText × Json), (∀ m ∈ fields, Showable depth m.2) →
      ∀ m ∈ members.foldl (fun fields m => setField m.1 m.2 fields) fields, Showable depth m.2 := by
    induction members with
    | nil => exact fun _ fields => fields
    | cons member members ih =>
      obtain ⟨first, rest⟩ := List.forall_mem_cons.1 h
      refine fun fields given => ih rest _ fun m inside => ?_
      rcases mem_setField inside with same | old
      · exact same ▸ first
      · exact given m old
  exact kept [] nofun

end LintServer.Json
