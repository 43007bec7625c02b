import LintServer.Proofs.Resolver.Scan

/-!
# The memory of a resolver

Between two invalidations a resolver answers about a storage from the disk as it
was when the storage was first looked at without an error, and lists its folder
once at most, whatever happens to the disk and whatever else is asked
(`memory_refines_scan`).
-/

namespace LintServer.Resolver

/-! ## Questions and histories -/

/-- What a resolver is asked for. -/
inductive Question where
  | archive
  | path
  | command (args : List LooseText)
  deriving DecidableEq, Repr

inductive Answer where
  | archive (found : Except Fault (Option Path))
  | path (path : Except Fault LooseText)
  | command (command : Except Fault (List LooseText))

/-- The path of the tool when this is found in the storage. -/
def pathOf (s : Settings) (found : Except Fault (Option Path)) : Except Fault LooseText :=
  if s.path ≠ "" then .ok s.path else found.map fun archive => archive.elim "" Path.text

namespace Question

def answer (s : Settings) (found : Except Fault (Option Path)) : Question → Answer
  | archive => .archive found
  | path => .path (pathOf s found)
  | command args => .command ((pathOf s found).map (commandAt · args))

/-- The storage that a question is about. Where a path is configured, only the question for
the archive is. -/
def storage? (s : Settings) (q : Question) : Option Path :=
  if s.storagePath = "" ∨ q ≠ archive ∧ s.path ≠ "" then none else some (Path.ofText s.storagePath)

end Question

def ask (q : Question) (s : Settings) (r : Resolver) (w : World) : Answer × Resolver × World :=
  match q with
  | .archive => (fun (found, x) => (.archive found, x)) (r.archive s w)
  | .path => (fun (path, x) => (.path path, x)) (r.effectivePath s w)
  | .command args => (fun (command, x) => (.command command, x)) (r.command s args w)

inductive Call where
  | ask (q : Question) (s : Settings)
  | invalidate
  deriving DecidableEq, Repr

def Call.concerns (storage : Path) : Call → Bool
  | .ask q s => q.storage? s == some storage
  | .invalidate => true

/-- A call while the disk is as given. -/
def call (x : Resolver × World) (c : Call × Disk) : Resolver × World :=
  let w := { x.2 with disk := c.2 }
  match c.1 with
  | .ask q s => (x.1.ask q s w).2
  | .invalidate => (x.1.invalidate, w)

def after (calls : List (Call × Disk)) (w : World) : Resolver × World :=
  calls.foldl call ({}, w)

def askAfter (calls : List (Call × Disk)) (w : World) (q : Question) (s : Settings) (d : Disk) :
    Answer × Resolver × World :=
  (after calls w).1.ask q s { (after calls w).2 with disk := d }

def listings (storage : Path) (w : World) : Nat :=
  w.log.count (.list (folder storage))

/-- The disk at the first look at a storage since the last invalidation, after one more call. A question that
ends with an error is no look. -/
def look (storage : Path) (first : Option Disk) (c : Call × Disk) : Option Disk :=
  match c.1, first with
  | .invalidate, _ => none
  | .ask _ _, some d => some d
  | .ask q s, none => if q.storage? s = some storage ∧ (scan storage c.2).isOk then some c.2 else none

def firstLook (storage : Path) (calls : List (Call × Disk)) : Option Disk :=
  calls.foldl (look storage) none

/-! ## One question -/

/-- Looks a storage up, on the disk only if it is not known. -/
def consult (storage : Path) (r : Resolver) (w : World) : Except Fault (Option Path) × Resolver × World :=
  match r.found.lookup storage.text with
  | some known => (.ok known, r, w)
  | none =>
    match newestArchive storage w with
    | (.error e, w) => (.error e, r, w)
    | (.ok found, w) => (.ok found, ⟨(storage.text, found) :: r.found⟩, w)

theorem archive_of_storage {s : Settings} (h : s.storagePath ≠ "") (r : Resolver) (w : World) :
    r.archive s w = consult (Path.ofText s.storagePath) r w := by
  rw [archive, if_neg h]
  rfl

theorem archive_of_no_storage {s : Settings} (h : s.storagePath = "") (r : Resolver) (w : World) :
    r.archive s w = (.ok none, r, w) :=
  if_pos h

theorem effectivePath_of_archive {s : Settings} (h : s.path = "") (r : Resolver) (w : World) :
    r.effectivePath s w = (pathOf s (r.archive s w).1, (r.archive s w).2) := by
  unfold effectivePath pathOf
  rw [if_neg (not_not_intro h), if_neg (not_not_intro h)]
  obtain ⟨found, r', w'⟩ := r.archive s w
  cases found with
  | error e => rfl
  | ok archive => cases archive <;> rfl

theorem effectivePath_of_configured {s : Settings} (h : s.path ≠ "") (found : Except Fault (Option Path)) (r : Resolver)
    (w : World) : r.effectivePath s w = (pathOf s found, r, w) := by
  rw [effectivePath, if_pos h, pathOf, if_pos h]

theorem command_of_path (s : Settings) (args : List LooseText) (r : Resolver) (w : World) :
    r.command s args w = ((r.effectivePath s w).1.map (commandAt · args), (r.effectivePath s w).2) := by
  unfold command
  obtain ⟨path, r', w'⟩ := r.effectivePath s w
  cases path <;> rfl

theorem ask_eq (q : Question) (s : Settings) (r : Resolver) (w : World) :
    r.ask q s w =
      if q ≠ .archive ∧ s.path ≠ "" then (q.answer s (.ok none), r, w)
      else (q.answer s (r.archive s w).1, (r.archive s w).2) := by
  cases q with
  | archive => rfl
  | path =>
    by_cases h : s.path = ""
    · rw [if_neg fun c => c.2 h, ask, effectivePath_of_archive h]
      rfl
    · rw [if_pos ⟨nofun, h⟩, ask, effectivePath_of_configured h (.ok none)]
      rfl
  | command args =>
    by_cases h : s.path = ""
    · rw [if_neg fun c => c.2 h, ask, command_of_path, effectivePath_of_archive h]
      rfl
    · rw [if_pos ⟨nofun, h⟩, ask, command_of_path, effectivePath_of_configured h (.ok none)]
      rfl

theorem ask_of_none {q : Question} {s : Settings} (h : q.storage? s = none) (r : Resolver) (w : World) :
    r.ask q s w = (q.answer s (.ok none), r, w) := by
  rw [ask_eq]
  split
  · rfl
  · rename_i asked
    unfold Question.storage? at h
    split at h
    · rename_i silent
      rw [archive_of_no_storage (silent.resolve_right asked)]
    · cases h

theorem ask_of_storage {q : Question} {s : Settings} {storage : Path} (h : q.storage? s = some storage)
    (r : Resolver) (w : World) :
    r.ask q s w = (q.answer s (consult storage r w).1, (consult storage r w).2) := by
  unfold Question.storage? at h
  split at h
  · cases h
  · rename_i asked
    cases h
    rw [ask_eq, if_neg fun c => asked (.inr c), archive_of_storage fun e => asked (.inl e)]

/-! ## What is known of a storage -/

theorem consult_fst (storage : Path) (r : Resolver) (w : World) :
    (consult storage r w).1 = (r.found.lookup storage.text).elim (scan storage w.disk) .ok := by
  unfold consult
  cases r.found.lookup storage.text with
  | some known => rfl
  | none =>
    rw [Option.elim_none, ← newestArchive_fst]
    dsimp only
    split
    · rename_i scanned
      rw [scanned]
    · rename_i scanned
      rw [scanned]

theorem consult_world (storage : Path) (r : Resolver) (w : World) :
    (consult storage r w).2.2 = (r.found.lookup storage.text).elim (newestArchive storage w).2 fun _ => w := by
  unfold consult
  cases r.found.lookup storage.text with
  | some known => rfl
  | none =>
    dsimp only
    split <;> rename_i scanned <;> rw [Option.elim_none, scanned]

theorem lookup_consult (storage : Path) (r : Resolver) (w : World) :
    (consult storage r w).2.1.found.lookup storage.text =
      (r.found.lookup storage.text).or (scan storage w.disk).toOption := by
  unfold consult
  cases known : r.found.lookup storage.text with
  | some found => exact known
  | none =>
    rw [Option.none_or, ← newestArchive_fst]
    dsimp only
    split
    · rename_i scanned
      rw [scanned]
      exact known
    · rename_i scanned
      rw [scanned]
      exact List.lookup_cons_self

theorem lookup_consult_of_ne {p storage : Path} (hp : p.Normal) (hs : storage.Normal) (h : p ≠ storage) (r : Resolver)
    (w : World) : (consult storage r w).2.1.found.lookup p.text = r.found.lookup p.text := by
  unfold consult
  split
  · rfl
  · split
    · rfl
    · have other : (p.text == storage.text) = false := beq_false_of_ne fun e => h ((Path.text_inj hp hs).1 e)
      rw [List.lookup_cons, other]

theorem normal_of_storage {q : Question} {s : Settings} {storage : Path} (h : q.storage? s = some storage) :
    storage.Normal := by
  unfold Question.storage? at h
  split at h
  · cases h
  · cases h
    exact Path.normal_ofText _

/-- What the first look at a storage leaves to be known of it. -/
inductive Recalls (p : Path) : Option Disk → Option (Option Path) → Prop
  | unseen : Recalls p none none
  | seen {d : Disk} {found : Option Path} (h : scan p d = .ok found) : Recalls p (some d) (some found)

theorem Recalls.look {p : Path} {first : Option Disk} {known : Option (Option Path)} (h : Recalls p first known)
    {q : Question} {s : Settings} (d : Disk) (about : q.storage? s = some p) :
    Recalls p (look p first (.ask q s, d)) (known.or (scan p d).toOption) := by
  cases h with
  | seen scanned => exact .seen scanned
  | unseen =>
    show Recalls p (if _ then _ else _) (scan p d).toOption
    cases scanned : scan p d with
    | error e =>
      rw [if_neg fun c => nomatch c.2]
      exact .unseen
    | ok found =>
      rw [if_pos ⟨about, rfl⟩]
      exact .seen scanned

theorem Recalls.elim {p : Path} {first : Option Disk} {known : Option (Option Path)} (h : Recalls p first known)
    (d : Disk) : known.elim (scan p d) .ok = scan p (first.getD d) := by
  cases h with
  | unseen => rfl
  | seen scanned => exact scanned.symm

theorem Recalls.of_none {p : Path} {known : Option (Option Path)} (h : Recalls p none known) : known = none := by
  cases h
  rfl

theorem look_of_other {p : Path} {q : Question} {s : Settings} (other : q.storage? s ≠ some p) (first : Option Disk)
    (d : Disk) : look p first (.ask q s, d) = first := by
  cases first with
  | some d₀ => rfl
  | none => exact if_neg fun c => other c.1

/-! ## A call -/

theorem call_of_none {q : Question} {s : Settings} (h : q.storage? s = none) (x : Resolver × World) (d : Disk) :
    call x (.ask q s, d) = (x.1, { x.2 with disk := d }) := by
  unfold call
  dsimp only
  rw [ask_of_none h]

theorem call_of_storage {q : Question} {s : Settings} {p : Path} (h : q.storage? s = some p) (x : Resolver × World)
    (d : Disk) : call x (.ask q s, d) = (consult p x.1 { x.2 with disk := d }).2 := by
  unfold call
  dsimp only
  rw [ask_of_storage h]

theorem recalls_call {p : Path} (hp : p.Normal) {first : Option Disk} {x : Resolver × World}
    (h : Recalls p first (x.1.found.lookup p.text)) (c : Call × Disk) :
    Recalls p (look p first c) ((call x c).1.found.lookup p.text) := by
  obtain ⟨c, d⟩ := c
  cases c with
  | invalidate => exact .unseen
  | ask q s =>
    cases about : q.storage? s with
    | none =>
      rw [call_of_none about, look_of_other (by rw [about]; nofun)]
      exact h
    | some storage =>
      rw [call_of_storage about]
      by_cases same : p = storage
      · subst same
        rw [lookup_consult]
        exact h.look d about
      · rw [lookup_consult_of_ne hp (normal_of_storage about) same,
          look_of_other fun e => same (Option.some.inj (e.symm.trans about))]
        exact h

theorem recalls_foldl {p : Path} (hp : p.Normal) (calls : List (Call × Disk)) {first : Option Disk}
    {x : Resolver × World} (h : Recalls p first (x.1.found.lookup p.text)) :
    Recalls p (calls.foldl (look p) first) ((calls.foldl call x).1.found.lookup p.text) := by
  induction calls generalizing first x with
  | nil => exact h
  | cons c calls ih => exact ih (recalls_call hp h c)

theorem recalls_after {p : Path} (hp : p.Normal) (calls : List (Call × Disk)) (w : World) :
    Recalls p (firstLook p calls) ((after calls w).1.found.lookup p.text) :=
  recalls_foldl hp calls .unseen

/-! ## Listings -/

/-- How often a storage was listed, and may yet be before an invalidation. -/
def allowance (p : Path) (x : Resolver × World) : Nat :=
  listings p x.2 + if (x.1.found.lookup p.text).isNone then 1 else 0

theorem listings_emit (p storage : Path) (hp : p.Normal) (hs : storage.Normal) (w : World) :
    listings p (w.emit (.list (folder storage))) = listings p w + if p = storage then 1 else 0 := by
  unfold listings World.emit
  rw [List.count_append, List.count_singleton]
  congr 1
  by_cases same : p = storage
  · rw [if_pos same, same, if_pos (beq_self_eq_true _)]
  · rw [if_neg same, if_neg]
    intro e
    injection eq_of_beq e with text
    exact same ((folder_inj hp hs).1 text.symm)

theorem listings_newestArchive_of_ne {p storage : Path} (hp : p.Normal) (hs : storage.Normal) (h : p ≠ storage)
    {w : World} (listable : w.disk.Listable) : listings p (newestArchive storage w).2 = listings p w := by
  rcases newestArchive_snd listable with still | ⟨listed, -⟩
  · rw [still]
  · rw [listed, listings_emit p storage hp hs, if_neg h, Nat.add_zero]

theorem allowance_consult {p storage : Path} (hp : p.Normal) (hs : storage.Normal) (r : Resolver) {w : World}
    (listable : w.disk.Listable) : allowance p (consult storage r w).2 ≤ allowance p (r, w) := by
  unfold allowance
  rw [consult_world]
  by_cases same : p = storage
  · subst same
    rw [lookup_consult]
    cases r.found.lookup p.text with
    | some found => exact Nat.le_refl _
    | none =>
      -- A listing is paid for by the answer that it leaves behind; an error comes without one.
      change listings p (newestArchive p w).2 + (if (scan p w.disk).toOption.isNone then 1 else 0) ≤ listings p w + 1
      rcases newestArchive_snd listable with still | ⟨listed, found, scanned⟩
      · rw [still]
        split <;> omega
      · rw [listed, listings_emit p p hp hp, if_pos rfl, scanned]
        exact Nat.le_refl _
  · rw [lookup_consult_of_ne hp hs same]
    refine Nat.add_le_add_right (Nat.le_of_eq ?_) _
    cases r.found.lookup storage.text with
    | some found => rfl
    | none => exact listings_newestArchive_of_ne hp hs same listable

theorem allowance_call {p : Path} (hp : p.Normal) (x : Resolver × World) {c : Call × Disk} (kept : c.1 ≠ .invalidate)
    (listable : c.2.Listable) : allowance p (call x c) ≤ allowance p x := by
  obtain ⟨c, d⟩ := c
  cases c with
  | invalidate => exact absurd rfl kept
  | ask q s =>
    cases about : q.storage? s with
    | none => rw [call_of_none about]; exact Nat.le_refl _
    | some storage =>
      rw [call_of_storage about]
      exact allowance_consult hp (normal_of_storage about) x.1 listable

theorem allowance_foldl {p : Path} (hp : p.Normal) {calls : List (Call × Disk)}
    (h : ∀ c ∈ calls, c.1 ≠ .invalidate ∧ c.2.Listable) (x : Resolver × World) :
    allowance p (calls.foldl call x) ≤ allowance p x := by
  induction calls generalizing x with
  | nil => exact Nat.le_refl _
  | cons c calls ih =>
    have first := h c List.mem_cons_self
    exact Nat.le_trans (ih (fun c' inside => h c' (List.mem_cons_of_mem _ inside)) _)
      (allowance_call hp x first.1 first.2)

theorem listings_foldl {p : Path} (hp : p.Normal) {calls : List (Call × Disk)}
    (h : ∀ c ∈ calls, c.1 ≠ .invalidate ∧ c.2.Listable) (x : Resolver × World) :
    listings p (calls.foldl call x).2 ≤ listings p x.2 + 1 := by
  have bound := allowance_foldl hp h x
  unfold allowance at bound
  split at bound <;> split at bound <;> omega

/-! ## Other storages -/

theorem foldl_look_filter (p : Path) (calls : List (Call × Disk)) (first : Option Disk) :
    (calls.filter fun c => c.1.concerns p).foldl (look p) first = calls.foldl (look p) first := by
  induction calls generalizing first with
  | nil => rfl
  | cons c calls ih =>
    by_cases about : c.1.concerns p = true
    · rw [List.filter_cons_of_pos (by exact about)]
      exact ih _
    · rw [List.filter_cons_of_neg (by exact about)]
      obtain ⟨c, d⟩ := c
      cases c with
      | invalidate => exact absurd rfl about
      | ask q s => rw [ih, List.foldl_cons, look_of_other fun e => about (beq_iff_eq.2 e)]

theorem firstLook_filter (p : Path) (calls : List (Call × Disk)) :
    firstLook p (calls.filter fun c => c.1.concerns p) = firstLook p calls :=
  foldl_look_filter p calls none

/-! ## The answers of a resolver -/

theorem askAfter_fst (calls : List (Call × Disk)) (w : World) (q : Question) (s : Settings) (d : Disk) :
    (askAfter calls w q s d).1 =
      q.answer s ((q.storage? s).elim (.ok none) fun p => scan p ((firstLook p calls).getD d)) := by
  unfold askAfter
  cases about : q.storage? s with
  | none => rw [ask_of_none about, Option.elim_none]
  | some p =>
    have known := recalls_after (normal_of_storage about) calls w
    rw [ask_of_storage about, consult_fst, Option.elim_some, ← known.elim]

theorem lookup_after_of_none {q : Question} {s : Settings} {p : Path} (about : q.storage? s = some p)
    {calls : List (Call × Disk)} (unseen : firstLook p calls = none) (w : World) :
    (after calls w).1.found.lookup p.text = none := by
  have known := recalls_after (normal_of_storage about) calls w
  rw [unseen] at known
  exact known.of_none

theorem askAfter_of_look_error {q : Question} {s : Settings} {p : Path} (about : q.storage? s = some p)
    {calls : List (Call × Disk)} (unseen : firstLook p calls = none) (w : World) {d : Disk} {e : Accident}
    (h : d.isFolder (folder p) = .error e) :
    askAfter calls w q s d =
      (q.answer s (.error (.outside e)), (after calls w).1, { (after calls w).2 with disk := d }) := by
  have scanned : newestArchive p { (after calls w).2 with disk := d } = _ := newestArchive_of_look_error h
  unfold askAfter
  rw [ask_of_storage about]
  unfold consult
  rw [lookup_after_of_none about unseen]
  dsimp only
  rw [scanned]

theorem askAfter_of_list_error {q : Question} {s : Settings} {p : Path} (about : q.storage? s = some p)
    {calls : List (Call × Disk)} (unseen : firstLook p calls = none) (w : World) {d : Disk} {e : Accident}
    (isFolder : d.isFolder (folder p) = .ok true) (h : d.list (folder p) = .error e) (system : e.isSystem = true) :
    (askAfter calls w q s d).1 = q.answer s (.ok none) ∧
      (askAfter calls w q s d).2.1.found.lookup p.text = some none := by
  have scanned := scan_of_list_error isFolder h system
  refine ⟨?_, ?_⟩
  · rw [askAfter_fst, about, Option.elim_some, unseen, Option.getD_none, scanned]
  · unfold askAfter
    rw [ask_of_storage about, lookup_consult, lookup_after_of_none about unseen, Option.none_or, scanned]
    rfl

theorem listings_after {p : Path} (hp : p.Normal) (before period : List (Call × Disk)) (w : World)
    (h : ∀ c ∈ period, c.1 ≠ .invalidate ∧ c.2.Listable) :
    listings p (after (before ++ period) w).2 ≤ listings p (after before w).2 + 1 := by
  unfold after
  rw [List.foldl_append]
  exact listings_foldl hp h _

/-- The answer to a question is that of a scan of its storage at the first look since the last invalidation.
Until the next invalidation no storage is listed twice, whatever happens to the disk. An error in looking for
the folder of the archives is told and not remembered; a listing that fails is remembered as no archive.
Calls about other storages are as good as none, and a configured path is answered without the disk. -/
theorem memory_refines_scan (calls : List (Call × Disk)) (w : World) (listable : ∀ c ∈ calls, c.2.Listable) :
    (∀ q s d, (askAfter calls w q s d).1 =
      q.answer s ((q.storage? s).elim (.ok none) fun p => scan p ((firstLook p calls).getD d))) ∧
    (∀ before period, calls = before ++ period → (∀ c ∈ period, c.1 ≠ .invalidate) → ∀ storage : LooseText,
      listings (Path.ofText storage) (after calls w).2 ≤ listings (Path.ofText storage) (after before w).2 + 1) ∧
    (∀ q s p d, q.storage? s = some p → firstLook p calls = none →
      (∀ e, d.isFolder (folder p) = .error e → askAfter calls w q s d =
        (q.answer s (.error (.outside e)), (after calls w).1, { (after calls w).2 with disk := d })) ∧
      (∀ e, d.isFolder (folder p) = .ok true → d.list (folder p) = .error e → e.isSystem = true →
        (askAfter calls w q s d).1 = q.answer s (.ok none) ∧
          (askAfter calls w q s d).2.1.found.lookup p.text = some none)) ∧
    (∀ q s p d, q.storage? s = some p →
      (askAfter (calls.filter fun c => c.1.concerns p) w q s d).1 = (askAfter calls w q s d).1) ∧
    (∀ s : Settings, s.path ≠ "" → ∀ (r : Resolver) (w : World) args,
      r.effectivePath s w = (.ok s.path, r, w) ∧ r.command s args w = (.ok (commandAt s.path args), r, w)) := by
  refine ⟨askAfter_fst calls w, ?_, ?_, ?_, ?_⟩
  · rintro before period rfl kept storage
    exact listings_after (Path.normal_ofText storage) before period w fun c inside =>
      ⟨kept c inside, listable c (List.mem_append_right before inside)⟩
  · intro q s p d about unseen
    exact ⟨fun e look => askAfter_of_look_error about unseen w look,
      fun e isFolder list system => askAfter_of_list_error about unseen w isFolder list system⟩
  · intro q s p d about
    rw [askAfter_fst, askAfter_fst, about, Option.elim_some, Option.elim_some, firstLook_filter]
  · intro s configured r w args
    have path : r.effectivePath s w = (.ok s.path, r, w) := if_pos configured
    exact ⟨path, by rw [command_of_path, path]; rfl⟩

/-- A storage that is asked for, then another that cannot be listed. -/
def sampleCalls : List (Call × Disk) := [
  (.ask .path { storagePath := "/s/" }, { folders := [("/s/bin", ["a.jar"])] }),
  (.ask .archive { storagePath := "/t" },
    { folders := [("/t/bin", ["c.jar"])], listErrors := [("/t/bin", .system .notPermitted "")] })]

/-- A newer archive is not seen before an invalidation, however the storage is spelt. -/
theorem memory_refines_scan_newer_archive :
    (∀ c ∈ sampleCalls, c.2.Listable) ∧
      (askAfter sampleCalls {} .path { storagePath := "/s" } { folders := [("/s/bin", ["a.jar", "b.jar"])] }).1 =
        .path (.ok "/s/bin/a.jar") ∧
      listings (Path.ofText "/s") (after sampleCalls {}).2 ≤ 1 ∧
      (askAfter sampleCalls {} .archive { storagePath := "/u" } { lookErrors := [("/u/bin", .runtime "loop")] }).2.1 =
        (after sampleCalls {}).1 ∧
      (askAfter sampleCalls {} .archive { storagePath := "/u" }
        { folders := [("/u/bin", [])], listErrors := [("/u/bin", .system .notPermitted "")] }).1 = .archive (.ok none) ∧
      (askAfter (sampleCalls.filter fun c => c.1.concerns (Path.ofText "/s")) {} .path { storagePath := "/s" } {}).1 =
        (askAfter sampleCalls {} .path { storagePath := "/s" } {}).1 ∧
      (after sampleCalls {}).1.effectivePath { path := "tool", storagePath := "/s" } {} =
        (.ok "tool", (after sampleCalls {}).1, {}) := by
  have listable : ∀ c ∈ sampleCalls, c.2.Listable := fun c inside =>
    Disk.listable_of_listErrors ((by decide : ∀ c ∈ sampleCalls, ∀ x ∈ c.2.listErrors, x.2.isSystem = true) c inside)
  obtain ⟨answers, listed, unseen, others, configured⟩ := memory_refines_scan sampleCalls {} listable
  refine ⟨listable, (answers _ _ _).trans rfl, ?_, ?_, ?_, others _ _ _ _ rfl,
    (configured _ (by decide) _ _ []).1⟩
  · exact listed [] sampleCalls rfl (by decide) "/s"
  · have told := (unseen .archive { storagePath := "/u" } (Path.ofText "/u")
      { lookErrors := [("/u/bin", .runtime "loop")] } rfl rfl).1 _ rfl
    rw [told]
  · exact ((unseen .archive _ (Path.ofText "/u") _ rfl rfl).2 (.system .notPermitted "") rfl rfl rfl).1

end LintServer.Resolver
