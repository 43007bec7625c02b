import LintServer.Proofs.Path.Normal
import LintServer.Resolver

/-!
# A scan of a storage

What a scan answers depends on the disk alone. It lists the folder of the archives
once at most, and that folder is not the one of another storage.
-/

namespace LintServer

/-- Listing a folder fails with errors of the operating system only. -/
def Disk.Listable (d : Disk) : Prop :=
  ∀ path e, d.list path = .error e → e.isSystem = true

theorem Disk.listable_of_listErrors {d : Disk} (h : ∀ x ∈ d.listErrors, x.2.isSystem = true) : d.Listable := by
  intro path e failed
  unfold Disk.list at failed
  split at failed
  · rename_i at_
    cases failed
    obtain ⟨before, after, split, -⟩ := List.lookup_eq_some_iff.1 at_
    exact h (path, e) (split ▸ List.mem_append_right _ List.mem_cons_self)
  · cases failed

namespace Resolver

def scan (storage : Path) (d : Disk) : Except Fault (Option Path) :=
  (newestArchive storage { disk := d }).1

/-- The folder of the archives in a storage. -/
def folder (storage : Path) : LooseText :=
  (storage.child "bin").text

theorem newestArchive_of_look_error {storage : Path} {w : World} {e : Accident}
    (h : w.disk.isFolder (folder storage) = .error e) : newestArchive storage w = (.error (.outside e), w) := by
  unfold newestArchive
  unfold folder at h
  dsimp only
  rw [h]

theorem newestArchive_of_no_folder {storage : Path} {w : World} (h : w.disk.isFolder (folder storage) = .ok false) :
    newestArchive storage w = (.ok none, w) := by
  unfold newestArchive
  unfold folder at h
  dsimp only
  rw [h]

def shown (storage : Path) : Except Accident (List LooseText) → Except Fault (Option Path)
  | .error e => if e.isSystem then .ok none else .error (.outside e)
  | .ok names => .ok ((greatest? (names.filter isArchive)).map (storage.child "bin").child)

theorem newestArchive_of_folder {storage : Path} {w : World} (h : w.disk.isFolder (folder storage) = .ok true) :
    newestArchive storage w = (shown storage (w.disk.list (folder storage)), w.emit (.list (folder storage))) := by
  unfold newestArchive World.list folder
  unfold folder at h
  dsimp only
  rw [h]
  cases w.disk.list (storage.child "bin").text <;> rfl

theorem newestArchive_fst (storage : Path) (w : World) : (newestArchive storage w).1 = scan storage w.disk := by
  let blank : World := { disk := w.disk }
  change _ = (newestArchive storage blank).1
  cases look : w.disk.isFolder (folder storage) with
  | error e =>
    have same : blank.disk.isFolder (folder storage) = .error e := look
    rw [newestArchive_of_look_error look, newestArchive_of_look_error same]
  | ok isFolder =>
    have same : blank.disk.isFolder (folder storage) = .ok isFolder := look
    cases isFolder with
    | false => rw [newestArchive_of_no_folder look, newestArchive_of_no_folder same]
    | true => rw [newestArchive_of_folder look, newestArchive_of_folder same]

theorem scan_of_list_error {storage : Path} {d : Disk} {e : Accident}
    (isFolder : d.isFolder (folder storage) = .ok true) (h : d.list (folder storage) = .error e)
    (system : e.isSystem = true) : scan storage d = .ok none := by
  unfold scan
  rw [newestArchive_of_folder isFolder, h]
  exact if_pos system

/-- A scan lists nothing but the folder of the archives, and then it has an answer if listings fail with
errors of the operating system only. -/
theorem newestArchive_snd {storage : Path} {w : World} (listable : w.disk.Listable) :
    (newestArchive storage w).2 = w ∨
      (newestArchive storage w).2 = w.emit (.list (folder storage)) ∧ ∃ found, scan storage w.disk = .ok found := by
  cases look : w.disk.isFolder (folder storage) with
  | error e => exact .inl (by rw [newestArchive_of_look_error look])
  | ok isFolder =>
    cases isFolder with
    | false => exact .inl (by rw [newestArchive_of_no_folder look])
    | true =>
      refine .inr ⟨by rw [newestArchive_of_folder look], ?_⟩
      rw [← newestArchive_fst, newestArchive_of_folder look]
      cases list : w.disk.list (folder storage) with
      | error e => exact ⟨none, if_pos (listable _ e list)⟩
      | ok names => exact ⟨_, rfl⟩

theorem folder_inj {p q : Path} (hp : p.Normal) (hq : q.Normal) : folder p = folder q ↔ p = q := by
  have part : Path.IsPart "bin" := ⟨by decide, by decide, by decide⟩
  refine ⟨fun h => ?_, fun h => h ▸ rfl⟩
  obtain ⟨rootp, partsp⟩ := p
  obtain ⟨rootq, partsq⟩ := q
  have same := (Path.text_inj (hp.child part) (hq.child part)).1 h
  injection same with root parts
  cases root
  cases List.append_cancel_right parts
  rfl

end Resolver

end LintServer
