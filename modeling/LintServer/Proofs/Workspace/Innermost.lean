import LintServer.Workspace
import Mathlib.Data.List.Basic

/-!
# The innermost folder

Of the folders of a workspace that a file lies in, the one with the most components
is where the tool works. Each of the others contains it, and no two of them have the
same number of components, so the order of the folders does not matter
(`workingFolder_innermost`).
-/

namespace LintServer

namespace Path

/-- The parts of a path, with its root in front of them if it has one. -/
def components (p : Path) : List LooseText :=
  if p.root = .relative then p.parts else p.root.text :: p.parts

/-- The path begins with the folder. -/
def Contains (folder p : Path) : Prop :=
  p.root = folder.root ∧ folder.components <+: p.components

theorem length_components (p : Path) : p.components.length = p.depth := by
  unfold components depth
  by_cases h : p.root = .relative
  · simp [h]
  · simp [h]

theorem components_prefix_iff {p q : Path} (same : p.root = q.root) :
    q.components <+: p.components ↔ q.parts <+: p.parts := by
  unfold components
  by_cases h : q.root = .relative
  · simp [same, h]
  · simp [same, h]

theorem isIn_iff_contains {p folder : Path} : p.isIn folder = true ↔ folder.Contains p := by
  rw [isIn_iff]
  exact and_congr_right fun same => (components_prefix_iff same).symm

variable {p q file : Path}

/-- Of two folders of one file the one with fewer components contains the other. -/
theorem Contains.of_length_le (hp : p.Contains file) (hq : q.Contains file)
    (h : q.components.length ≤ p.components.length) : q.Contains p :=
  ⟨hp.1.symm.trans hq.1, List.prefix_of_prefix_length_le hq.2 hp.2 h⟩

theorem Contains.eq_of_length_eq (hp : p.Contains file) (hq : q.Contains file)
    (h : q.components.length = p.components.length) : q = p := by
  obtain ⟨root, within⟩ := hp.of_length_le hq (Nat.le_of_eq h)
  have parts := ((components_prefix_iff root).1 within).eq_of_length (by
    rw [length_components, length_components, depth, depth, root] at h
    omega)
  cases p
  cases q
  cases root
  cases parts
  rfl

end Path

namespace Workspace

/-! ## The folders that can be read -/

def folderPath? (entry : Json) : Option Path :=
  (Uri.valuePath? entry).toOption.join

theorem paths_of_readable {folders : List Json} (h : ∀ entry ∈ folders, (Uri.valuePath? entry).isOk = true) :
    paths folders = .ok (folders.filterMap folderPath?) := by
  induction folders with
  | nil => rfl
  | cons entry folders ih =>
    obtain ⟨here, later⟩ := List.forall_mem_cons.1 h
    unfold paths
    cases read : Uri.valuePath? entry with
    | error e =>
      rw [read] at here
      cases here
    | ok path =>
      cases path with
      | none => simp [ih later, folderPath?, read, Except.toOption]
      | some path => simp [ih later, folderPath?, read, Except.toOption, Except.map]

/-- The path is that of a folder which the file lies in. -/
def Holds (folders : List Json) (file p : Path) : Prop :=
  (∃ entry ∈ folders, Uri.valuePath? entry = .ok (some p)) ∧ p.Contains file

theorem mem_candidates_iff {folders : List Json} {file p : Path} :
    p ∈ (folders.filterMap folderPath?).filter file.isIn ↔ Holds folders file p := by
  have read (entry : Json) : folderPath? entry = some p ↔ Uri.valuePath? entry = .ok (some p) := by
    unfold folderPath?
    cases Uri.valuePath? entry <;> simp [Except.toOption]
  simp only [List.mem_filter, List.mem_filterMap, read, Path.isIn_iff_contains, Holds]

/-! ## The deepest path -/

theorem deepest?_eq_none_iff {ps : List Path} : deepest? ps = none ↔ ps = [] := by
  cases ps with
  | nil => simp [deepest?]
  | cons p ps =>
    unfold deepest?
    cases deepest? ps <;> simp

theorem deepest?_spec {ps : List Path} {p : Path} (h : deepest? ps = some p) :
    p ∈ ps ∧ ∀ q ∈ ps, q.depth ≤ p.depth := by
  induction ps generalizing p with
  | nil => cases h
  | cons first ps ih =>
    unfold deepest? at h
    cases later : deepest? ps with
    | none =>
      rw [later] at h
      cases h
      simp [deepest?_eq_none_iff.1 later]
    | some q =>
      rw [later] at h
      obtain ⟨mem, most⟩ := ih later
      dsimp only at h
      split at h
      · rename_i deeper
        cases h
        refine ⟨List.mem_cons_of_mem _ mem, fun r hr => ?_⟩
        rcases List.mem_cons.1 hr with rfl | hr
        · exact Nat.le_of_lt deeper
        · exact most r hr
      · rename_i shallow
        cases h
        refine ⟨List.mem_cons_self, fun r hr => ?_⟩
        rcases List.mem_cons.1 hr with rfl | hr
        · exact Nat.le_refl _
        · exact Nat.le_trans (most r hr) (Nat.le_of_not_lt shallow)

/-! ## The working folder -/

/-- The deepest folder that the file lies in, and where there is none the folder of the file. -/
def IsInnermost (folders : List Json) (file p : Path) : Prop :=
  (Holds folders file p ∧ ∀ q, Holds folders file q → q.components.length ≤ p.components.length) ∨
    (¬ ∃ q, Holds folders file q) ∧ p = file.parent

theorem workingFolder_of_readable {folders : List Json} (h : ∀ entry ∈ folders, (Uri.valuePath? entry).isOk = true)
    (file : Path) : ∃ p, workingFolder folders file = .ok p ∧ IsInnermost folders file p := by
  refine ⟨(deepest? ((folders.filterMap folderPath?).filter file.isIn)).getD file.parent, ?_, ?_⟩
  · rw [workingFolder, paths_of_readable h]
    rfl
  · cases found : deepest? ((folders.filterMap folderPath?).filter file.isIn) with
    | none =>
      have empty := deepest?_eq_none_iff.1 found
      refine .inr ⟨?_, rfl⟩
      rintro ⟨q, holds⟩
      have mem := mem_candidates_iff.2 holds
      rw [empty] at mem
      cases mem
    | some p =>
      obtain ⟨mem, most⟩ := deepest?_spec found
      refine .inl ⟨mem_candidates_iff.1 mem, fun q holds => ?_⟩
      rw [Path.length_components, Path.length_components]
      exact most q (mem_candidates_iff.2 holds)

theorem IsInnermost.unique {folders : List Json} {file p q : Path} (hp : IsInnermost folders file p)
    (hq : IsInnermost folders file q) : p = q := by
  rcases hp with ⟨holds, most⟩ | ⟨none, rfl⟩
  · rcases hq with ⟨holds', most'⟩ | ⟨none, -⟩
    · exact holds'.2.eq_of_length_eq holds.2 (Nat.le_antisymm (most' p holds) (most q holds'))
    · exact absurd ⟨p, holds⟩ none
  · rcases hq with ⟨holds, -⟩ | ⟨-, rfl⟩
    · exact absurd ⟨q, holds⟩ none
    · rfl

/-- **The innermost folder.** With folders that can be read, the tool works in the folder with the most
components of those that the file lies in, all of which contain it and have fewer components, and in the
folder of the file if it lies in none of them. The order of the folders does not matter. -/
theorem workingFolder_innermost {folders : List Json} (file : Path)
    (h : ∀ entry ∈ folders, (Uri.valuePath? entry).isOk = true) :
    ∃ p, workingFolder folders file = .ok p ∧
      ((∃ q, Holds folders file q) → Holds folders file p ∧ ∀ q, Holds folders file q →
        q.Contains p ∧ q.components.length ≤ p.components.length ∧
          (q.components.length = p.components.length → q = p)) ∧
      ((¬ ∃ q, Holds folders file q) → p = file.parent) ∧
      ∀ others : List Json, others.Perm folders → workingFolder others file = .ok p := by
  obtain ⟨p, found, innermost⟩ := workingFolder_of_readable h file
  refine ⟨p, found, ?_, ?_, fun others perm => ?_⟩
  · intro given
    rcases innermost with ⟨holds, most⟩ | ⟨none, -⟩
    · exact ⟨holds, fun q hq => ⟨holds.2.of_length_le hq.2 (most q hq), most q hq, holds.2.eq_of_length_eq hq.2⟩⟩
    · exact absurd given none
  · intro none
    rcases innermost with ⟨holds, -⟩ | ⟨-, parent⟩
    · exact absurd ⟨p, holds⟩ none
    · exact parent
  · obtain ⟨q, found', innermost'⟩ := workingFolder_of_readable (fun entry mem => h entry (perm.mem_iff.1 mem)) file
    have same : Holds others file = Holds folders file := by
      funext r
      simp only [Holds, perm.mem_iff]
    rw [IsInnermost, same] at innermost'
    rw [found', innermost.unique innermost']

/-- Among the folders are the root, a value that is no text, a URI that names no path, and a network path. -/
theorem workingFolder_innermost_nested :
    let folders : List Json :=
      [.ofString "file:///", .null, .ofString "file:///proj/./sub/", .ofString "git:/proj/sub/x", .ofString "/proj",
        .ofString "file://proj/sub/x"]
    let file := Path.ofText "/proj/sub/x/a.cfc"
    (∀ entry ∈ folders, (Uri.valuePath? entry).isOk = true) ∧
      ∀ others : List Json, others.Perm folders → workingFolder others file = .ok ⟨.slash, ["proj", "sub"]⟩ := by
  intro folders file
  have readable : ∀ entry ∈ folders, (Uri.valuePath? entry).isOk = true := by decide +kernel
  obtain ⟨p, found, -, -, others⟩ := workingFolder_innermost file readable
  have here : workingFolder folders file = .ok ⟨.slash, ["proj", "sub"]⟩ := by decide +kernel
  rw [found] at here
  exact ⟨readable, here ▸ others⟩

end Workspace

end LintServer
