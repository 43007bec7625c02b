import LintServer.Proofs.Session.Order
import LintServer.Proofs.Session.Reach
import LintServer.Proofs.Session.Roster
import Mathlib.Data.Multiset.Filter

/-!
# Documents that new settings reach

Under new settings a handler lints the open documents one after the other, in an
order of its own. It comes to every document with a local path up to the first
one that cannot be read, whatever becomes of the passes, and to none behind that
one. It starts a pass over a document that it comes to while lint is enabled and
the folders can be read (`relinted_iff`).
-/

namespace LintServer.Session

open Lint (Desk)
open Relation (ReflTransGen)

/-! ## The moves of a handler -/

/-- The step whose handler makes a move. -/
def Move.step? (s : Session) : Move → Option Nat
  | .receive k _ => some k
  | .turn i => s.schedule.ready[i]?.map (·.job.step)
  | _ => none

/-- The step that a move begins. -/
def Move.begins? : Move → Option Nat
  | .receive k _ => some k
  | _ => none

/-- The documents that a move has ahead: those of its message, or those left to the job whose pass ends. -/
def agenda (s : Session) : Move → List LooseText
  | .receive k m => (s.face.receive k m).ahead
  | .turn i =>
    match s.ending? i with
    | some (job, _) => job.task.rest
    | none => []
  | _ => []

/-- The documents of the passes that a move starts. -/
def lintedIn (s : Session) (m : Move) : List LooseText :=
  (s.play m).roster.drop s.roster.length

/-- The documents of the passes that the handler of a step starts in some moves. -/
def lintedBy (k : Nat) (s : Session) : List Move → List LooseText
  | [] => []
  | m :: ms => (if m.step? s = some k then s.lintedIn m else []) ++ (s.play m).lintedBy k ms

/-- Whenever the handler of a step goes on with a document still ahead, lint is enabled and the
folders can be read. -/
def ServedBy (k : Nat) (uri : LooseText) (s : Session) : List Move → Prop
  | [] => True
  | m :: ms => (m.step? s = some k → uri ∈ s.agenda m → (s.play m).Serving) ∧ (s.play m).ServedBy k uri ms

instance decidableServedBy (k : Nat) (uri : LooseText) :
    ∀ (s : Session) (ms : List Move), Decidable (s.ServedBy k uri ms)
  | _, [] => inferInstanceAs (Decidable True)
  | s, m :: ms =>
    have := decidableServedBy k uri (s.play m) ms
    inferInstanceAs (Decidable ((m.step? s = some k → uri ∈ s.agenda m → (s.play m).Serving) ∧
      (s.play m).ServedBy k uri ms))

/-- The jobs of a step. -/
def jobsOf (k : Nat) (s : Session) : Multiset Job := s.schedule.jobs.filter (·.step = k)

section
variable {s t : Session} {k : Nat} {docs : List LooseText}

theorem jobsOf_of_jobs (h : t.schedule.jobs = s.schedule.jobs) : t.jobsOf k = s.jobsOf k :=
  congrArg (Multiset.filter _) h

theorem jobsOf_of_cons {job : Job} (h : t.schedule.jobs = job ::ₘ s.schedule.jobs) (hk : job.step = k) :
    t.jobsOf k = job ::ₘ s.jobsOf k := by
  rw [jobsOf, h, Multiset.filter_cons_of_pos (p := fun j : Job => j.step = k) _ hk]
  rfl

theorem jobsOf_of_cons_of_ne {job : Job} (h : t.schedule.jobs = job ::ₘ s.schedule.jobs) (hk : job.step ≠ k) :
    t.jobsOf k = s.jobsOf k := by
  rw [jobsOf, h, Multiset.filter_cons_of_neg (p := fun j : Job => j.step = k) _ hk]
  rfl

/-! ## Moves -/

theorem Works.jobsOf_of_ne {j : Nat} (h : Works j docs s t) (hj : j ≠ k) : t.jobsOf k = s.jobsOf k := by
  cases h with
  | ends jobs => exact jobsOf_of_jobs jobs
  | waits job first step jobs => exact jobsOf_of_cons_of_ne jobs (step ▸ hj)

theorem Begins.started {m : Move} {f : Face} (hb : Begins s m f) : f.desk.started = s.roster := by
  cases hb with
  | receive k m =>
    obtain ⟨uris, hd⟩ := s.face.desk_receive k m
    exact Desk.started_of_calls (hd ▸ calls_clearAway uris s.linter.desk)
  | _ => exact Desk.started_of_calls rfl

theorem serving_of_strides {f : Face} (h : ReflTransGen Stride f t.face) : t.Serving ↔ f.Serving := by
  obtain ⟨settings, -, folders⟩ := kept_of_strides h
  rw [Face.Serving, ← settings, ← folders]
  rfl

/-- Where lint is disabled or the folders cannot be read, a move only takes away a job or keeps all. -/
theorem idle_of_begins {m : Move} {f : Face} (hb : Begins s m f) (hs : ReflTransGen Stride f (s.play m).face)
    (hn : ¬ (s.play m).Serving) : (s.play m).schedule.jobs = f.jobs ∧ s.lintedIn m = [] := by
  obtain ⟨jobs, started⟩ := idle_of_strides (fun h => hn ((serving_of_strides hs).2 h)) hs
  have roster : (s.play m).roster = s.roster := started.trans hb.started
  exact ⟨jobs, by rw [lintedIn, roster, List.drop_length]⟩

theorem jobsOf_receive {j : Nat} (hj : j ≠ k) (m : Message) : (s.receive j m).jobsOf k = s.jobsOf k := by
  have strides := s.receive_strides j m
  by_cases hs : (s.receive j m).Serving
  · exact (receive_works j m ((serving_of_strides strides).1 hs)).jobsOf_of_ne hj
  · have idle : (s.receive j m).schedule.jobs = (s.face.receive j m).jobs :=
      (idle_of_begins (m := .receive j m) (.receive j m) strides hs).1
    exact jobsOf_of_jobs (idle.trans (s.face.jobs_receive j m))

theorem jobs_of_ending {i : Nat} {job : Job} {outcome : Except Fault (List Diagnostic)}
    (h : s.ending? i = some (job, outcome)) :
    s.schedule.jobs = job ::ₘ (s.withoutTurn i).schedule.jobs ∧ Move.step? s (.turn i) = some job.step := by
  unfold ending? at h
  split at h
  · rename_i w ht
    split at h <;> cases h
    exact ⟨Schedule.jobs_eraseIdx ht, by rw [Move.step?, ht]; rfl⟩
  · cases h

theorem ending_works (hs : s.Serving) {i : Nat} {job : Job} {outcome : Except Fault (List Diagnostic)}
    (h : s.ending? i = some (job, outcome)) :
    Works job.step job.task.rest (s.withoutTurn i) (s.play (.turn i)) := by
  unfold ending? at h
  split at h
  · rename_i w ht
    split at h <;> cases h
    rename_i output ho
    simp only [play, ht]
    exact advance_works (s := s.withoutTurn i) hs ho
  · cases h

/-- The end of a pass while lint is enabled and the folders can be read, or where nothing is started. -/
theorem ending_cases {i : Nat} {job : Job} {outcome : Except Fault (List Diagnostic)}
    (h : s.ending? i = some (job, outcome)) :
    (s.play (.turn i)).Serving ∧ Works job.step job.task.rest (s.withoutTurn i) (s.play (.turn i)) ∨
      ¬ (s.play (.turn i)).Serving ∧ (s.play (.turn i)).schedule.jobs = (s.withoutTurn i).schedule.jobs ∧
        s.lintedIn (.turn i) = [] := by
  obtain ⟨f, hb, hs⟩ := s.play_strides (.turn i)
  by_cases serving : (s.play (.turn i)).Serving
  · have kept : f.Serving → s.Serving := by
      cases hb <;> exact id
    exact .inl ⟨serving, ending_works (kept ((serving_of_strides hs).1 serving)) h⟩
  · obtain ⟨jobs, linted⟩ := idle_of_begins hb hs serving
    refine .inr ⟨serving, jobs.trans ?_, linted⟩
    cases hb with
    | turn _ hi => cases hi.symm.trans h
    | ending _ job' outcome' e shown left hi hj he =>
      cases hi.symm.trans h
      exact (Multiset.cons_inj_right job).1 (hj.symm.trans (jobs_of_ending h).1)

theorem jobsOf_ending {i : Nat} {job : Job} {outcome : Except Fault (List Diagnostic)}
    (h : s.ending? i = some (job, outcome)) (hk : job.step ≠ k) : (s.play (.turn i)).jobsOf k = s.jobsOf k := by
  rw [jobsOf_of_cons_of_ne (jobs_of_ending h).1 hk]
  rcases ending_cases h with ⟨-, works⟩ | ⟨-, jobs, -⟩
  · exact works.jobsOf_of_ne hk
  · exact jobsOf_of_jobs jobs

theorem face_of_strides {f g : Face} (h : ReflTransGen Stride f g) (ha : f.ahead = []) : g = f := by
  rcases h.cases_head with h | ⟨x, hx, -⟩
  · exact h.symm
  · have none {uri : LooseText} {rest : List LooseText} (h : f.ahead = uri :: rest) : False := by
      rw [ha] at h
      cases h
    cases hx with
    | skip uri rest h => exact (none h).elim
    | abandon uri rest e h => exact (none h).elim
    | pass uri rest file e d h => exact (none h).elim
    | wait job file a d h => exact (none h).elim

/-- A move begins a step, ends a pass of one, or has nothing ahead and keeps the face. -/
theorem play_cases (s : Session) (m : Move) : (∃ j msg, m = .receive j msg) ∨
    (∃ i job outcome, m = .turn i ∧ s.ending? i = some (job, outcome)) ∨
    s.agenda m = [] ∧ (s.play m).face = s.face := by
  cases m with
  | receive j msg => exact .inl ⟨j, msg, rfl⟩
  | turn i =>
    cases h : s.ending? i with
    | some e => exact .inr (.inl ⟨i, e.1, e.2, rfl, h⟩)
    | none =>
      obtain ⟨f, hb, hs⟩ := s.play_strides (.turn i)
      refine .inr (.inr ⟨by rw [agenda, h], ?_⟩)
      cases hb with
      | turn => exact face_of_strides hs rfl
      | ending _ job outcome e shown left hi => cases hi.symm.trans h
  | report => exact .inr (.inr ⟨rfl, rfl⟩)
  | outside world => exact .inr (.inr ⟨rfl, rfl⟩)

theorem lintedIn_of_face {m : Move} (h : (s.play m).face = s.face) : s.lintedIn m = [] := by
  have roster : (s.play m).roster = s.roster := congrArg (fun f => f.desk.started) h
  rw [lintedIn, roster, List.drop_length]

/-! ## What is left to a handler -/

/-- What the handler of a step has left to lint: what its only job has left, or nothing when it is over. -/
inductive Left (k : Nat) (s : Session) : List LooseText → Prop
  | finished (jobs : s.jobsOf k = 0) : Left k s []
  | job (job : Job) (jobs : s.jobsOf k = {job}) : Left k s job.task.rest

/-- What a move of a handler does about documents ahead: it starts passes over those that it comes to,
or it comes to all that are left and starts none. -/
inductive Advances (k : Nat) (docs : List LooseText) (s : Session) (m : Move) : Prop
  | serves (first rest : List LooseText) (serving : (s.play m).Serving) (split : docs = first ++ rest)
      (all : lintable docs = lintable first ++ lintable rest) (linted : s.lintedIn m = lintable first)
      (left : Left k (s.play m) rest)
  | idles (idle : ¬ (s.play m).Serving) (linted : s.lintedIn m = []) (left : Left k (s.play m) [])

theorem Works.advances {u : Session} {m : Move} (h : Works k docs u (s.play m)) (none : u.jobsOf k = 0)
    (roster : u.roster = s.roster) (serving : (s.play m).Serving) : Advances k docs s m := by
  cases h with
  | ends jobs more =>
    refine .serves docs [] serving (List.append_nil docs).symm (List.append_nil _).symm ?_
      (.finished ((jobsOf_of_jobs jobs).trans none))
    rw [lintedIn, more, roster, List.drop_left]
  | waits job first step jobs split legible more =>
    refine .serves first job.task.rest serving split (split ▸ lintable_append legible _) ?_ (.job job ?_)
    · rw [lintedIn, more, roster, List.drop_left]
    · rw [jobsOf_of_cons jobs step, none]
      rfl

theorem advances_receive (none : s.jobsOf k = 0) (m : Message) :
    Advances k (s.agenda (.receive k m)) s (.receive k m) := by
  have strides := s.receive_strides k m
  by_cases hs : (s.receive k m).Serving
  · exact (receive_works k m ((serving_of_strides strides).1 hs)).advances none rfl hs
  · obtain ⟨jobs, linted⟩ := idle_of_begins (m := .receive k m) (.receive k m) strides hs
    refine .idles hs linted (.finished ?_)
    exact (jobsOf_of_jobs (jobs.trans (s.face.jobs_receive k m))).trans none

theorem Left.ending {i : Nat} {job : Job} {outcome : Except Fault (List Diagnostic)} (h : Left k s docs)
    (hi : s.ending? i = some (job, outcome)) (hk : job.step = k) :
    docs = s.agenda (.turn i) ∧ Advances k docs s (.turn i) := by
  have own : s.jobsOf k = job ::ₘ (s.withoutTurn i).jobsOf k := jobsOf_of_cons (jobs_of_ending hi).1 hk
  cases h with
  | finished jobs =>
    rw [own] at jobs
    exact absurd jobs Multiset.cons_ne_zero
  | job job' jobs =>
    rw [own] at jobs
    obtain ⟨rfl, none⟩ := (Multiset.singleton_eq_cons_iff _).1 jobs.symm
    refine ⟨by rw [agenda, hi], ?_⟩
    rcases ending_cases hi with ⟨serving, works⟩ | ⟨idle, same, linted⟩
    · exact (hk ▸ works).advances none rfl serving
    · exact .idles idle linted (.finished ((jobsOf_of_jobs same).trans none))

/-- What a handler makes of a document in some moves, when it has these left. -/
structure Settles (k : Nat) (uri : LooseText) (docs : List LooseText) (s : Session) (ms : List Move) : Prop where
  linted : uri ∈ s.lintedBy k ms ↔ uri ∈ lintable docs ∧ s.ServedBy k uri ms
  served : uri ∉ docs → s.ServedBy k uri ms

variable {uri : LooseText} {m : Move} {ms : List Move}

theorem Advances.settles (h : Advances k docs s m) (hd : docs = s.agenda m) (hm : m.step? s = some k)
    (nodup : docs.Nodup)
    (later : ∀ rest, rest.Nodup → Left k (s.play m) rest → Settles k uri rest (s.play m) ms) :
    Settles k uri docs s (m :: ms) := by
  have linted : s.lintedBy k (m :: ms) = s.lintedIn m ++ (s.play m).lintedBy k ms := by rw [lintedBy, if_pos hm]
  have served : s.ServedBy k uri (m :: ms) ↔ (uri ∈ docs → (s.play m).Serving) ∧ (s.play m).ServedBy k uri ms := by
    rw [ServedBy, ← hd]
    simp only [hm, forall_const]
  cases h with
  | serves first rest serving split all started left =>
    subst split
    obtain ⟨-, nodup', apart⟩ := List.nodup_append.1 nodup
    obtain ⟨linted', served'⟩ := later rest nodup' left
    refine ⟨?_, fun hu => served.2 ⟨fun _ => serving, served' fun h => hu (List.mem_append_right first h)⟩⟩
    rw [linted, served, started, all, List.mem_append, List.mem_append, linted']
    constructor
    · rintro (hu | ⟨hu, hs⟩)
      · exact ⟨.inl hu, fun _ => serving, served' fun h => apart uri (mem_of_lintable hu) uri h rfl⟩
      · exact ⟨.inr hu, fun _ => serving, hs⟩
    · rintro ⟨hu | hu, -, hs⟩
      · exact .inl hu
      · exact .inr ⟨hu, hs⟩
  | idles idle none left =>
    obtain ⟨linted', served'⟩ := later [] List.nodup_nil left
    refine ⟨?_, fun hu => served.2 ⟨fun h => absurd h hu, served' List.not_mem_nil⟩⟩
    rw [linted, served, none, List.nil_append, linted']
    constructor
    · rintro ⟨hu, -⟩
      exact absurd hu List.not_mem_nil
    · rintro ⟨hu, hs, -⟩
      exact absurd (hs (mem_of_lintable hu)) idle

/-- A move of another handler, or one with nothing ahead, settles nothing. -/
theorem Settles.cons (h : Settles k uri docs (s.play m) ms)
    (hm : m.step? s = some k → s.lintedIn m = [] ∧ s.agenda m = []) : Settles k uri docs s (m :: ms) := by
  have none : (if m.step? s = some k then s.lintedIn m else []) = [] := by
    split
    · exact (hm ‹_›).1
    · rfl
  have served : s.ServedBy k uri (m :: ms) ↔ (s.play m).ServedBy k uri ms := by
    refine and_iff_right fun hk hu => ?_
    rw [(hm hk).2] at hu
    exact absurd hu List.not_mem_nil
  refine ⟨?_, fun hu => served.2 (h.served hu)⟩
  rw [lintedBy, none, List.nil_append, served, h.linted]

/-- The handler comes to what it has left, in the moves up to its end. -/
theorem Left.settles (own : ∀ m ∈ ms, m.begins? ≠ some k) : ∀ {s : Session} {docs : List LooseText},
    Left k s docs → docs.Nodup → (s.playAll ms).jobsOf k = 0 → Settles k uri docs s ms := by
  induction ms with
  | nil =>
    intro s docs h _ ended
    have ended : s.jobsOf k = 0 := ended
    cases h with
    | finished => exact ⟨iff_of_false List.not_mem_nil fun h => List.not_mem_nil h.1, fun _ => trivial⟩
    | job job jobs => exact absurd (jobs.symm.trans ended) (Multiset.singleton_ne_zero job)
  | cons m ms ih =>
    intro s docs h nodup ended
    obtain ⟨hm, hms⟩ := List.forall_mem_cons.1 own
    have later (docs : List LooseText) (nodup : docs.Nodup) (h : Left k (s.play m) docs) :
        Settles k uri docs (s.play m) ms := ih hms h nodup ended
    have others (jobs : (s.play m).jobsOf k = s.jobsOf k) : Left k (s.play m) docs := by
      cases h with
      | finished none => exact .finished (jobs.trans none)
      | job job one => exact .job job (jobs.trans one)
    rcases s.play_cases m with ⟨j, msg, rfl⟩ | ⟨i, job, outcome, rfl, hi⟩ | ⟨none, hf⟩
    · have hj : j ≠ k := fun e => hm (congrArg some e)
      exact (later docs nodup (others (jobsOf_receive hj msg))).cons fun e => absurd (Option.some.inj e) hj
    · by_cases hk : job.step = k
      · obtain ⟨hd, advances⟩ := h.ending hi hk
        exact advances.settles hd ((jobs_of_ending hi).2.trans (congrArg some hk)) nodup later
      · refine (later docs nodup (others (jobsOf_ending hi hk))).cons fun e => ?_
        exact absurd (Option.some.inj ((jobs_of_ending hi).2.symm.trans e)) hk
    · have jobs : (s.play m).schedule.jobs = s.schedule.jobs := congrArg Face.jobs hf
      exact (later docs nodup (others (jobsOf_of_jobs jobs))).cons fun _ => ⟨lintedIn_of_face hf, none⟩

end

/-! ## Isolation -/

theorem mem_lintable {uri : LooseText} {file : Path} (hp : Uri.toPath? uri = .ok (some file)) {docs : List LooseText}
    (hu : uri ∈ docs) : uri ∈ lintable docs ↔ ∀ v ∈ docs.takeWhile (· != uri), (Uri.toPath? v).isOk = true := by
  induction docs with
  | nil => cases hu
  | cons v rest ih =>
    by_cases h : v = uri
    · subst h
      rw [lintable_of_local hp, List.takeWhile_cons_of_neg (by simp)]
      exact iff_of_true List.mem_cons_self fun w hw => absurd hw List.not_mem_nil
    · have hu := (List.mem_cons.1 hu).resolve_left (Ne.symm h)
      rw [List.takeWhile_cons_of_pos (by simpa using h), List.forall_mem_cons, lintable]
      split <;> rename_i hv <;> rw [hv]
      · exact iff_of_false List.not_mem_nil fun hr => Bool.false_ne_true hr.1
      · exact (ih hu).trans (and_iff_right rfl).symm
      · rw [List.mem_cons, or_iff_right (Ne.symm h)]
        exact (ih hu).trans (and_iff_right rfl).symm

/-- A handler of new settings that lints the open documents, from its message to its end. Its
step is its own. -/
structure Relints (s : Session) (k : Nat) (payload : Json) (after : List Move) : Prop where
  adopts : ∃ new, Settings.ofJson s.conditions.nesting payload = .ok new ∧ new.lintEnabled = true ∧ s.settings ≠ new
  fresh : ∀ job ∈ s.schedule.jobs, job.step ≠ k
  own : ∀ m ∈ after, m.begins? ≠ some k
  ended : ∀ job ∈ ((s.play (.receive k (.configured payload))).playAll after).schedule.jobs, job.step ≠ k

theorem Relints.agenda {s : Session} {k : Nat} {payload : Json} {after : List Move} (h : s.Relints k payload after) :
    s.agenda (.receive k (.configured payload)) = s.conditions.order k s.documents := by
  obtain ⟨new, hp, enabled, changed⟩ := h.adopts
  rw [Session.agenda, s.face.receive_of_read k hp]
  exact if_pos ⟨enabled, changed⟩

/-- What a handler of new settings has linted when it is over. -/
theorem linted_when_over {s : Session} {k : Nat} {payload : Json} {after : List Move}
    (h : s.Relints k payload after) (nodup : s.documents.Nodup) (uri : LooseText) :
    uri ∈ s.lintedBy k (.receive k (.configured payload) :: after) ↔
      uri ∈ lintable (s.conditions.order k s.documents) ∧
        s.ServedBy k uri (.receive k (.configured payload) :: after) := by
  have none : s.jobsOf k = 0 := Multiset.filter_eq_nil.2 h.fresh
  have ended : ((s.play (.receive k (.configured payload))).playAll after).jobsOf k = 0 :=
    Multiset.filter_eq_nil.2 h.ended
  rw [← h.agenda]
  have nodup : (s.agenda (.receive k (.configured payload))).Nodup :=
    h.agenda ▸ (s.face.perm_inOrder k).nodup_iff.2 nodup
  exact ((advances_receive none (.configured payload)).settles rfl rfl nodup
    fun rest nodup left => left.settles h.own nodup ended).linted

/-- **Isolation of documents.** Whatever runs, and however passes over the others end: when a handler of
new settings is over, it has started a pass over an open document with a local path exactly if every
document before that one in the handler's order could be read as a path or as none, and whenever the
handler went on with that one ahead, lint was enabled and the folders could be read. -/
theorem relinted_iff (conditions : Conditions) (folders : List Json) (notifies : Bool) (world : World)
    (before : List Move) (k : Nat) (payload : Json) (after : List Move) :
    let s := (opening conditions folders notifies world).playAll before
    s.Relints k payload after → ∀ uri ∈ s.documents, (∃ file, Uri.toPath? uri = .ok (some file)) →
      (uri ∈ s.lintedBy k (.receive k (.configured payload) :: after) ↔
        (∀ v ∈ (s.conditions.order k s.documents).takeWhile (· != uri), (Uri.toPath? v).isOk = true) ∧
          s.ServedBy k uri (.receive k (.configured payload) :: after)) := by
  intro s h uri hu
  rintro ⟨file, hp⟩
  have nodup : s.documents.Nodup :=
    (orderly_playAll before (orderly_opening conditions folders notifies world)).documents
  have ahead : uri ∈ s.conditions.order k s.documents := (s.face.mem_inOrder k).2 hu
  rw [linted_when_over h nodup, mem_lintable hp ahead]

/-- A handler that takes the documents from the last to the first, with a document that cannot be read opened first. -/
theorem relinted_after_gate :
    let conditions : Conditions := { order := fun _ => List.reverse, perm := fun _ => List.reverse_perm }
    let s := (opening conditions [] true { runs := [{}, {}, { gate := some "g" }] }).playAll
      [.receive 0 (.opened "//["), .receive 1 (.opened "file:///a"), .receive 2 (.opened "file:///b")]
    ("file:///a" : LooseText) ∈
      s.lintedBy 3 [.receive 3 (.configured tooledPayload), .receive 4 (.release "g"), .turn 0] := by
  intro conditions s
  have relints : s.Relints 3 tooledPayload [.receive 4 (.release "g"), .turn 0] :=
    ⟨⟨tooled, ofJson_tooledPayload _, by decide, by decide +kernel⟩, by decide +kernel, by decide, by decide +kernel⟩
  exact (relinted_iff conditions [] true _
    [.receive 0 (.opened "//["), .receive 1 (.opened "file:///a"), .receive 2 (.opened "file:///b")] 3 tooledPayload _
    relints "file:///a" (by decide +kernel) ⟨_, rfl⟩).2 ⟨by decide +kernel, by decide +kernel⟩

/-- A document that cannot be read keeps the ones behind it from being linted again. -/
theorem not_relinted :
    ¬ ∀ (conditions : Conditions) (folders : List Json) (notifies : Bool) (world : World) (before : List Move)
        (k : Nat) (payload : Json) (after : List Move),
      let s := (opening conditions folders notifies world).playAll before
      s.Relints k payload after → ∀ uri ∈ s.documents, (∃ file, Uri.toPath? uri = .ok (some file)) →
        (∀ part, part <+: after → uri ∈ ((s.play (.receive k (.configured payload))).playAll part).documents) →
        uri ∈ s.lintedBy k (.receive k (.configured payload) :: after) := by
  intro h
  let s := (opening default [] true {}).playAll [.receive 0 (.opened "//["), .receive 1 (.opened "file:///b")]
  have relints : s.Relints 2 tooledPayload [] :=
    ⟨⟨tooled, ofJson_tooledPayload _, by decide, by decide +kernel⟩, by decide +kernel, by decide, by decide +kernel⟩
  have linted := h default [] true {} [.receive 0 (.opened "//["), .receive 1 (.opened "file:///b")] 2 tooledPayload []
    relints "file:///b" (by decide +kernel) ⟨_, rfl⟩ ?_
  · exact absurd linted (by decide +kernel)
  · intro part hp
    rw [List.prefix_nil.1 hp]
    decide +kernel

end LintServer.Session
