import LintServer.Proofs.Resolver.Scan
import LintServer.Proofs.Workspace.Innermost
import Mathlib.Data.List.TakeWhile
import Mathlib.Data.String.Basic

/-!
# The newest archive

A storage shows the archive whose name is the greatest by code points, whatever the
order of the listing. It is the last one when the paths of the archives are sorted,
because paths in one folder are in the order of their names (`newestArchive_exact`).
-/

namespace LintServer

/-! ## The order of texts and paths -/

/-- No character lies where the halves of surrogate pairs do. -/
theorem Symbol.codePoint_injective : Function.Injective Symbol.codePoint := by
  have apart (c : Char) (offset : Fin 0x800) : c.toNat ≠ 0xD800 + offset := by
    have valid : c.toNat < 0xD800 ∨ 0xDFFF < c.toNat ∧ c.toNat < 0x110000 := c.valid
    omega
  intro a b same
  cases a with
  | char c =>
    cases b with
    | char d => exact congrArg Symbol.char (Char.toNat_inj.1 same)
    | half offset => exact absurd same (apart c offset)
  | half offset =>
    cases b with
    | char d => exact absurd same.symm (apart d offset)
    | half other => exact congrArg Symbol.half (Fin.ext (Nat.add_left_cancel same))

namespace LooseText

theorem codePoints_injective : Function.Injective codePoints := fun _ _ same =>
  ext (List.map_injective_iff.2 Symbol.codePoint_injective same)

instance : LinearOrder LooseText :=
  LinearOrder.lift' codePoints codePoints_injective

theorem codePoints_strictMono : StrictMono codePoints := fun _ _ h => h

end LooseText

namespace Path

/-- Paths are compared by their components, and these by their code points. -/
def order (p : Path) : List (List Nat) :=
  p.components.map LooseText.codePoints

theorem components_child (p : Path) (name : LooseText) : (p.child name).components = p.components ++ [name] := by
  unfold components child
  by_cases h : p.root = .relative
  · simp [h]
  · simp [h]

/-- Paths in one folder are in the order of their names. -/
theorem order_strictMono (folder : Path) : StrictMono fun name => (folder.child name).order := by
  intro a b h
  simp only [order, components_child, List.map_append, List.map_cons, List.map_nil]
  apply List.append_left_lt
  exact List.Lex.rel (LooseText.codePoints_strictMono h)

def sorted (ps : List Path) : List Path :=
  ps.mergeSort fun p q => p.order ≤ q.order

theorem mem_sorted {p : Path} {ps : List Path} : p ∈ sorted ps ↔ p ∈ ps :=
  List.mem_mergeSort

theorem pairwise_sorted (ps : List Path) : (sorted ps).Pairwise fun p q => p.order ≤ q.order := by
  have trans (p q r : Path) (hpq : decide (p.order ≤ q.order) = true) (hqr : decide (q.order ≤ r.order) = true) :
      decide (p.order ≤ r.order) = true := by
    simp only [decide_eq_true_eq] at *
    exact hpq.trans hqr
  have total (p q : Path) : (decide (p.order ≤ q.order) || decide (q.order ≤ p.order)) = true := by
    simp only [Bool.or_eq_true, decide_eq_true_eq]
    exact le_total _ _
  have h := List.pairwise_mergeSort trans total ps
  simp only [decide_eq_true_eq] at h
  exact h

theorem getLast?_sorted {ps : List Path} {p : Path} (h : (sorted ps).getLast? = some p) :
    p ∈ ps ∧ ∀ q ∈ ps, q.order ≤ p.order := by
  obtain ⟨before, split⟩ := List.getLast?_eq_some_iff.1 h
  refine ⟨mem_sorted.1 (by simp [split]), ?_⟩
  intro q hq
  have inside : q ∈ sorted ps := mem_sorted.2 hq
  have pairs := pairwise_sorted ps
  rw [split, List.mem_append, List.mem_singleton] at inside
  rw [split, List.pairwise_append] at pairs
  rcases inside with earlier | rfl
  · exact pairs.2.2 q earlier p (by simp)
  · exact le_refl _

theorem getLast?_sorted_children (folder : Path) (names : List LooseText) :
    (sorted (names.map folder.child)).getLast? = names.max?.map folder.child := by
  cases greatest : names.max? with
  | none =>
    rw [List.max?_eq_none_iff] at greatest
    simp [greatest, sorted]
  | some best =>
    obtain ⟨mem, most⟩ := List.max?_eq_some_iff.1 greatest
    have child : folder.child best ∈ names.map folder.child := List.mem_map_of_mem mem
    cases last : (sorted (names.map folder.child)).getLast? with
    | none =>
      rw [List.getLast?_eq_none_iff] at last
      have inside := mem_sorted.2 child
      rw [last] at inside
      cases inside
    | some p =>
      -- No name is greater than the best, and the path of the best does not stand behind the last one.
      obtain ⟨inside, behind⟩ := getLast?_sorted last
      obtain ⟨name, listed, rfl⟩ := List.mem_map.1 inside
      have least : best ≤ name := (order_strictMono folder).le_iff_le.1 (behind _ child)
      rw [le_antisymm least (most name listed)]
      rfl

/-- The last part of a path, empty if it has none. -/
def name (p : Path) : LooseText :=
  p.parts.getLastD ""

theorem name_child (p : Path) (name : LooseText) : (p.child name).name = name := by
  simp [Path.name, child]

end Path

namespace Resolver

/-! ## The suffix of a name -/

/-- The ending goes on from the last point of the name, and that is neither its first nor its last character. -/
def HasSuffix (name ending : LooseText) : Prop :=
  ∃ stem tail, name.symbols = stem ++ .char '.' :: tail ∧ .char '.' ∉ tail ∧ stem ≠ [] ∧ tail ≠ [] ∧
    ending.symbols = .char '.' :: tail

theorem reverse_ne_point {us : List Symbol} (h : .char '.' ∉ us) : ∀ u ∈ us.reverse, (u != .char '.') = true := by
  intro u hu
  simp only [bne_iff_ne, ne_eq]
  rintro rfl
  exact h (List.mem_reverse.1 hu)

theorem suffix_of_notMem {name : List Symbol} (h : .char '.' ∉ name) : suffix name = [] := by
  have none : name.reverse.dropWhile (· != .char '.') = [] := List.dropWhile_eq_nil_iff.2 (reverse_ne_point h)
  simp [suffix, none]

theorem suffix_append {tail : List Symbol} (h : .char '.' ∉ tail) (stem : List Symbol) :
    suffix (stem ++ .char '.' :: tail) = if stem = [] ∨ tail = [] then [] else .char '.' :: tail := by
  -- Backwards, the tail is all that stands in front of the first point.
  have turned : (stem ++ .char '.' :: tail).reverse = tail.reverse ++ .char '.' :: stem.reverse := by simp
  rw [suffix, turned, List.takeWhile_append_of_pos (reverse_ne_point h),
    List.dropWhile_append_of_pos (reverse_ne_point h)]
  simp

theorem exists_last_point {name : List Symbol} (h : .char '.' ∈ name) :
    ∃ stem tail, name = stem ++ .char '.' :: tail ∧ .char '.' ∉ tail := by
  obtain ⟨tail, stem, split, clean⟩ := List.eq_append_cons_of_mem (List.mem_reverse.2 h)
  refine ⟨stem.reverse, tail.reverse, ?_, ?_⟩
  · simpa using congrArg List.reverse split
  · simpa using clean

theorem suffix_eq_iff {name ending : LooseText} (given : ending.symbols ≠ []) :
    suffix name.symbols = ending.symbols ↔ HasSuffix name ending := by
  constructor
  · intro h
    by_cases point : .char '.' ∈ name.symbols
    · obtain ⟨stem, tail, split, clean⟩ := exists_last_point point
      rw [split, suffix_append clean] at h
      by_cases outer : stem = [] ∨ tail = []
      · rw [if_pos outer] at h
        exact absurd h.symm given
      · rw [if_neg outer] at h
        rw [not_or] at outer
        exact ⟨stem, tail, split, clean, outer.1, outer.2, h.symm⟩
    · rw [suffix_of_notMem point] at h
      exact absurd h.symm given
  · rintro ⟨stem, tail, split, clean, before, behind, same⟩
    rw [split, same, suffix_append clean]
    simp [before, behind]

theorem isArchive_iff {name : LooseText} : isArchive name = true ↔ HasSuffix name ".jar" := by
  rw [isArchive, beq_iff_eq]
  exact suffix_eq_iff (by decide)

/-! ## The greatest name -/

theorem greatest?_eq_max? (names : List LooseText) : greatest? names = names.max? := by
  induction names with
  | nil => rfl
  | cons name names ih =>
    rw [greatest?, ih, List.max?_cons]
    cases names.max? with
    | none => rfl
    | some best =>
      by_cases h : name < best
      · have less : name.codePoints < best.codePoints := h
        simp [less, max_eq_right (le_of_lt h)]
      · have more : ¬ name.codePoints < best.codePoints := h
        simp [more, max_eq_left (not_lt.1 h)]

/-- Of the names with the suffix of archives this one is the greatest by code points. -/
structure IsNewest (names : List LooseText) (name : LooseText) : Prop where
  mem : name ∈ names
  suffix : HasSuffix name ".jar"
  greatest : ∀ other ∈ names, HasSuffix other ".jar" → other.codePoints ≤ name.codePoints

variable {names : List LooseText}

theorem greatest?_archives_eq_some_iff {name : LooseText} :
    greatest? (names.filter isArchive) = some name ↔ IsNewest names name := by
  rw [greatest?_eq_max?, List.max?_eq_some_iff]
  simp only [List.mem_filter, isArchive_iff, and_imp, ← LooseText.codePoints_strictMono.le_iff_le]
  constructor
  · rintro ⟨⟨mem, suffix⟩, greatest⟩
    exact ⟨mem, suffix, greatest⟩
  · rintro ⟨mem, suffix, greatest⟩
    exact ⟨⟨mem, suffix⟩, greatest⟩

theorem greatest?_archives_eq_none_iff :
    greatest? (names.filter isArchive) = none ↔ ∀ name ∈ names, ¬ HasSuffix name ".jar" := by
  rw [greatest?_eq_max?, List.max?_eq_none_iff, List.filter_eq_nil_iff]
  simp only [isArchive_iff]

theorem IsNewest.of_perm {others : List LooseText} {name : LooseText} (perm : others.Perm names)
    (h : IsNewest names name) : IsNewest others name where
  mem := perm.mem_iff.2 h.mem
  suffix := h.suffix
  greatest other mem := h.greatest other (perm.mem_iff.1 mem)

theorem greatest?_archives_of_perm {others : List LooseText} (perm : others.Perm names) :
    greatest? (others.filter isArchive) = greatest? (names.filter isArchive) := by
  ext name
  rw [greatest?_archives_eq_some_iff, greatest?_archives_eq_some_iff]
  exact ⟨.of_perm perm.symm, .of_perm perm⟩

/-- The paths of the archives among the entries of a folder, sorted. -/
def sortedArchives (bin : Path) (names : List LooseText) : List Path :=
  Path.sorted ((names.map bin.child).filter fun p => isArchive p.name)

theorem getLast?_sortedArchives (bin : Path) (names : List LooseText) :
    (sortedArchives bin names).getLast? = (greatest? (names.filter isArchive)).map bin.child := by
  have named : (fun p : Path => isArchive p.name) ∘ bin.child = isArchive := by
    funext name
    simp [Path.name_child]
  rw [sortedArchives, List.filter_map, named, Path.getLast?_sorted_children, greatest?_eq_max?]

/-! ## The newest archive of a storage -/

/-- What a storage shows where its folder of archives has these entries. -/
def newest (storage : Path) (names : List LooseText) : Option Path :=
  (greatest? (names.filter isArchive)).map (storage.child "bin").child

variable {storage : Path} {w : World}

theorem newest_eq_none_iff : newest storage names = none ↔ ∀ name ∈ names, ¬ HasSuffix name ".jar" := by
  rw [newest, Option.map_eq_none_iff, greatest?_archives_eq_none_iff]

theorem newest_eq_some_iff {path : Path} :
    newest storage names = some path ↔ ∃ name, IsNewest names name ∧ path = (storage.child "bin").child name := by
  rw [newest, Option.map_eq_some_iff]
  simp only [greatest?_archives_eq_some_iff, @eq_comm _ _ path]

theorem newest_of_perm {others : List LooseText} (perm : others.Perm names) :
    newest storage others = newest storage names := by
  unfold newest
  rw [greatest?_archives_of_perm perm]

theorem newestArchive_of_names (isFolder : w.disk.isFolder (folder storage) = .ok true)
    (list : w.disk.list (folder storage) = .ok names) : (newestArchive storage w).1 = .ok (newest storage names) := by
  rw [newestArchive_of_folder isFolder, list]
  rfl

/-- **The newest archive.** Where it can be told whether the storage has a folder of archives, and listing it fails
with errors of the operating system only, there is an answer. It is none exactly if there is no such folder, the
listing fails, or no entry has the suffix of archives, and else the entry with that suffix whose name is the greatest
by code points: the last one of their sorted paths, whatever the order of the listing. -/
theorem newestArchive_exact {isFolder : Bool} (looked : w.disk.isFolder (folder storage) = .ok isFolder)
    (listable : ∀ e, w.disk.list (folder storage) = .error e → e.isSystem = true) :
    ∃ found, (newestArchive storage w).1 = .ok found ∧
      (found = none ↔ isFolder = false ∨ (∃ e, w.disk.list (folder storage) = .error e) ∨
        ∃ names, w.disk.list (folder storage) = .ok names ∧ ∀ name ∈ names, ¬ HasSuffix name ".jar") ∧
      (∀ path, found = some path ↔ isFolder = true ∧ ∃ names, w.disk.list (folder storage) = .ok names ∧
        ∃ name, IsNewest names name ∧ path = (storage.child "bin").child name) ∧
      ∀ names, isFolder = true → w.disk.list (folder storage) = .ok names →
        found = (sortedArchives (storage.child "bin") names).getLast? ∧
        ∀ (w' : World) (others : List LooseText), w'.disk.isFolder (folder storage) = .ok true →
          w'.disk.list (folder storage) = .ok others → others.Perm names →
            (newestArchive storage w').1 = .ok found := by
  cases isFolder with
  | false =>
    refine ⟨none, ?_, ?_, ?_, nofun⟩
    · rw [newestArchive_of_no_folder looked]
    · simp
    · simp
  | true =>
    cases list : w.disk.list (folder storage) with
    | error e =>
      refine ⟨none, ?_, ?_, ?_, nofun⟩
      · rw [newestArchive_fst]
        exact scan_of_list_error looked list (listable e list)
      · simp
      · simp
    | ok listed =>
      refine ⟨newest storage listed, newestArchive_of_names looked list, ?_, ?_, ?_⟩
      · simp [newest_eq_none_iff]
      · simp [newest_eq_some_iff]
      · intro names _ same
        cases same
        refine ⟨(getLast?_sortedArchives _ _).symm, ?_⟩
        intro w' others isFolder' list' perm
        rw [newestArchive_of_names isFolder' list', newest_of_perm perm]

def sampleNames : List LooseText :=
  [".jar", "😀.jar", "z.jar.", "..jar", "\uffee.jar", "😀.JAR", "jar"]

/-- A hidden name, a point at the end and capital letters make no archive, and a character beyond sixteen bits comes
after all those below. -/
theorem newestArchive_exact_supplementary :
    let storage := Path.ofText "/s"
    let world (names : List LooseText) : World := { disk := { folders := [("/s/bin", names)] } }
    (world sampleNames).disk.isFolder (folder storage) = .ok true ∧
      (∀ e, (world sampleNames).disk.list (folder storage) = .error e → e.isSystem = true) ∧
      ∀ others : List LooseText, others.Perm sampleNames →
        (newestArchive storage (world others)).1 = .ok (some ⟨.slash, ["s", "bin", "😀.jar"]⟩) := by
  intro storage world
  have folder : folder storage = "/s/bin" := by decide +kernel
  have looked (names : List LooseText) : (world names).disk.isFolder (Resolver.folder storage) = .ok true := by
    rw [folder]
    rfl
  have list (names : List LooseText) : (world names).disk.list (Resolver.folder storage) = .ok names := by
    rw [folder]
    rfl
  have listable : ∀ e, (world sampleNames).disk.list (Resolver.folder storage) = .error e → e.isSystem = true := by
    intro e failed
    rw [list] at failed
    cases failed
  obtain ⟨found, told, -, -, given⟩ := newestArchive_exact (looked sampleNames) listable
  have here : (newestArchive storage (world sampleNames)).1 = .ok (some ⟨.slash, ["s", "bin", "😀.jar"]⟩) := by
    decide +kernel
  refine ⟨looked _, listable, ?_⟩
  intro others perm
  rw [← here, told]
  exact (given _ rfl (list _)).2 _ others (looked _) (list _) perm

end Resolver

end LintServer
