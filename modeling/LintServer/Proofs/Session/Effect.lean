import LintServer.Proofs.Lint.Sheet
import LintServer.Proofs.Session.Strides

/-!
# What moves do to a document

A move does not ask for passes at its beginning, and marks documents then only
to forget them. Its strides ask for passes, each with the settings of the
session, and only over documents ahead.
-/

namespace LintServer.Session

open Lint (Desk EndsAs Ledger Mark PassEnd Started publications)
open Relation (ReflTransGen)

def published (s : Session) (uri : LooseText) : List (List Diagnostic) := (s.linter.desk.sheet uri).published

/-- The settings of the passes that were asked for over a document, the newest first. -/
def callsFor (s : Session) (uri : LooseText) : List Settings := (s.linter.desk.sheet uri).calls

/-- A loop over these documents comes to one with a local path: none before it is unreadable. -/
inductive LeadsTo (uri : LooseText) : List LooseText → Prop
  | here (file : Path) (rest : List LooseText) (h : Uri.toPath? uri = .ok (some file)) : LeadsTo uri (uri :: rest)
  | later (v : LooseText) (rest : List LooseText) (hv : (Uri.toPath? v).isOk = true) (h : LeadsTo uri rest) :
      LeadsTo uri (v :: rest)

theorem LeadsTo.mem {uri : LooseText} {docs : List LooseText} (h : LeadsTo uri docs) : uri ∈ docs := by
  induction h with
  | here file rest h => exact List.mem_cons_self
  | later v rest hv h ih => exact List.mem_cons_of_mem v ih

/-! ## Starts of passes -/

theorem publications_afterwards_of_ne {v uri : LooseText} (h : v ≠ uri) (e : PassEnd) :
    publications uri (afterwards v e) = [] := by
  cases e with
  | ok ds => rfl
  | error f => exact Lint.publications_of_ne h []

theorem publications_afterwards_self (uri : LooseText) (e : PassEnd) :
    ∀ ds ∈ publications uri (afterwards uri e), ds = [] := by
  cases e with
  | ok ds => simp [afterwards, publications]
  | error f => simp [afterwards]

theorem publications_afterwards (v uri : LooseText) (e : PassEnd) :
    ∀ ds ∈ publications uri (afterwards v e), ds = [] := by
  by_cases h : v = uri
  · subst h
    exact publications_afterwards_self v e
  · simp [publications_afterwards_of_ne h]

namespace StartsAs
variable {settings : Settings} {folders : List Json} {uri v : LooseText} {d d' : Desk} {started : Started}

theorem sheet_of_ne (h : StartsAs settings folders v d started d') (hv : v ≠ uri) :
    d'.sheet uri = d.sheet uri := by
  cases h with
  | astray e hp => rfl
  | clear hs => exact d.sheet_clear_of_ne hv settings
  | finish outcome e shown hs he =>
    exact (Desk.sheet_display_of_nil _ (he.publications_of_ne hv)).trans (d.sheet_number_of_ne hv settings)
  | wait a hs => exact d.sheet_number_of_ne hv settings

theorem asked (h : StartsAs settings folders uri d started d') :
    (d' = d ∧ ∃ e, Workspace.paths folders = .error e) ∨
    (∃ m : Mark, m.uri = uri ∧ d'.ledger = d.ledger.mark m) ∧
      (d'.sheet uri).calls = settings :: (d.sheet uri).calls := by
  have hc := d.calls_call_self uri settings
  cases h with
  | astray e hp => exact .inl ⟨rfl, e, hp⟩
  | clear hs => exact .inr ⟨⟨.forget uri, rfl, rfl⟩, hc⟩
  | finish outcome e shown hs he => exact .inr ⟨⟨.next uri, rfl, rfl⟩, hc⟩
  | wait a hs => exact .inr ⟨⟨.next uri, rfl, rfl⟩, hc⟩

theorem shown_grows (h : StartsAs settings folders uri d started d') : d.shown <+: d'.shown := by
  cases h with
  | astray e hp => exact List.prefix_rfl
  | clear hs => exact List.prefix_append _ _
  | finish outcome e shown hs he => exact List.prefix_append _ _
  | wait a hs => exact List.prefix_rfl

theorem counter_of_waiting {n : Nat} {a : Lint.Arrival} (h : StartsAs settings folders uri d (.waiting n a) d') :
    d'.ledger.counter = n := by
  cases h
  rfl

end StartsAs

/-! ## Strides -/

namespace Stride
variable {f g : Face} {uri : LooseText}

theorem kept (h : Stride f g) : g.settings = f.settings ∧ g.documents = f.documents ∧ g.folders = f.folders := by
  cases h <;> exact ⟨rfl, rfl, rfl⟩

theorem ahead_sublist (h : Stride f g) : g.ahead.Sublist f.ahead := by
  cases h with
  | skip uri rest h hp => exact h ▸ List.sublist_cons_self uri rest
  | abandon uri rest e h hp => exact List.nil_sublist _
  | pass uri rest file e d h hp hs => exact h ▸ List.sublist_cons_self uri rest
  | wait job file a d h hp hs => exact List.nil_sublist _

theorem jobs_subset (h : Stride f g) {job : Job} (hj : job ∈ f.jobs) : job ∈ g.jobs := by
  cases h with
  | skip v rest h hp => exact hj
  | abandon v rest e h hp => exact hj
  | pass v rest file e d h hp hs => exact hj
  | wait k file a d h hp hs => exact Multiset.mem_cons_of_mem hj

theorem mem_jobs {job : Job} (h : Stride f g) (hj : job ∈ g.jobs) : job ∈ f.jobs ∨
    f.ahead = job.uri :: job.task.rest ∧ job.sequence ≤ g.desk.ledger.counter := by
  cases h with
  | skip uri rest h hp => exact .inl hj
  | abandon uri rest e h hp => exact .inl hj
  | pass uri rest file e d h hp hs => exact .inl hj
  | wait k file a d h hp hs =>
    rcases Multiset.mem_cons.mp hj with rfl | hj
    · exact .inr ⟨h, Nat.le_of_eq hs.counter_of_waiting.symm⟩
    · exact .inl hj

/-- A loop that does not lead to a document lints another one, if any. -/
theorem sheet_of_astray (h : Stride f g) (hu : ¬ LeadsTo uri f.ahead) : g.desk.sheet uri = f.desk.sheet uri := by
  cases h with
  | skip v rest h hp => rfl
  | abandon v rest e h hp => rfl
  | pass v rest file e d h hp hs =>
    have hv : v ≠ uri := fun e => hu (h ▸ e ▸ .here file rest (e ▸ hp))
    exact (d.sheet_display_of_nil (publications_afterwards_of_ne hv e)).trans (hs.sheet_of_ne hv)
  | wait job file a d h hp hs => exact hs.sheet_of_ne fun e => hu (h ▸ e ▸ .here file job.task.rest (e ▸ hp))

theorem sheet_of_not_mem (h : Stride f g) (hu : uri ∉ f.ahead) : g.desk.sheet uri = f.desk.sheet uri :=
  h.sheet_of_astray fun hl => hu hl.mem

/-- A pass is asked for, or the document is cleared at most. -/
theorem asked (h : Stride f g) (uri : LooseText) :
    (f.desk.sheet uri).Fades (g.desk.sheet uri) ∨
    (g.desk.sheet uri).calls = f.settings :: (f.desk.sheet uri).calls ∧
      (∃ m : Mark, m.uri = uri ∧ g.desk.ledger = f.desk.ledger.mark m) := by
  by_cases hu : uri ∈ f.ahead
  · cases h with
    | skip v rest h hp => exact .inl (.refl _)
    | abandon v rest e h hp => exact .inl (.refl _)
    | pass v rest file e d h hp hs =>
      have hd := d.sheet_display uri (afterwards v e)
      by_cases hv : v = uri
      · subst hv
        rcases hs.asked with ⟨rfl, -⟩ | ⟨hm, hc⟩
        · exact .inl (f.desk.fades_display (publications_afterwards_self v e))
        · exact .inr ⟨(congrArg Lint.Sheet.calls hd).trans hc, hm⟩
      · have := (d.sheet_display_of_nil (publications_afterwards_of_ne hv e)).trans (hs.sheet_of_ne hv)
        exact .inl (this ▸ .refl _)
    | wait job file a d h hp hs =>
      by_cases hv : job.uri = uri
      · subst hv
        rcases hs.asked with ⟨rfl, -⟩ | ⟨hm, hc⟩
        · exact .inl (.refl _)
        · exact .inr ⟨hc, hm⟩
      · exact .inl (hs.sheet_of_ne hv ▸ .refl _)
  · exact .inl (h.sheet_of_not_mem hu ▸ .refl _)

theorem shown_grows (h : Stride f g) : f.desk.shown <+: g.desk.shown := by
  cases h with
  | skip v rest h hp => exact List.prefix_rfl
  | abandon v rest e h hp => exact List.prefix_rfl
  | pass v rest file e d h hp hs => exact hs.shown_grows.trans (List.prefix_append _ _)
  | wait job file a d h hp hs => exact hs.shown_grows

theorem ledger (h : Stride f g) : ∃ ms, g.desk.ledger = f.desk.ledger.marks ms := by
  cases h with
  | skip v rest h hp => exact ⟨[], rfl⟩
  | abandon v rest e h hp => exact ⟨[], rfl⟩
  | pass v rest file e d h hp hs =>
    rcases hs.asked with ⟨rfl, -⟩ | ⟨⟨m, -, hm⟩, -⟩
    · exact ⟨[], rfl⟩
    · exact ⟨[m], hm⟩
  | wait job file a d h hp hs =>
    rcases hs.asked with ⟨rfl, -⟩ | ⟨⟨m, -, hm⟩, -⟩
    · exact ⟨[], rfl⟩
    · exact ⟨[m], hm⟩

end Stride

section
variable {f g : Face} (h : ReflTransGen Stride f g)
include h

theorem sheet_of_strides {uri : LooseText} (hu : uri ∉ f.ahead) : g.desk.sheet uri = f.desk.sheet uri := by
  refine (strides_keep (P := fun x => x.desk.sheet uri = f.desk.sheet uri ∧ uri ∉ x.ahead) ?_ h ⟨rfl, hu⟩).1
  rintro x y hs ⟨he, hn⟩
  exact ⟨(hs.sheet_of_not_mem hn).trans he, fun hm => hn (hs.ahead_sublist.subset hm)⟩

theorem ledger_strides : ∃ ms, g.desk.ledger = f.desk.ledger.marks ms := by
  refine strides_keep (P := fun x => ∃ ms, x.desk.ledger = f.desk.ledger.marks ms) ?_ h ⟨[], rfl⟩
  rintro x y hs ⟨ms, hm⟩
  obtain ⟨ns, hn⟩ := hs.ledger
  exact ⟨ms ++ ns, by rw [hn, hm, Ledger.marks_append]⟩

theorem kept_of_strides :
    g.settings = f.settings ∧ g.documents = f.documents ∧ g.folders = f.folders := by
  refine strides_keep ?_ h (P := fun x => x.settings = f.settings ∧ x.documents = f.documents ∧
    x.folders = f.folders) ⟨rfl, rfl, rfl⟩
  rintro x y hs ⟨settings, docs, folders⟩
  exact ⟨hs.kept.1.trans settings, hs.kept.2.1.trans docs, hs.kept.2.2.trans folders⟩

end

/-! ## Beginnings -/

theorem sheet_clearAway (uri : LooseText) (uris : List LooseText) : ∀ d : Desk,
    (d.sheet uri).Fades ((clearAway d uris).sheet uri) := by
  induction uris with
  | nil =>
    intro d
    exact .refl _
  | cons v uris ih =>
    intro d
    refine ((d.fades_forget uri v).trans ((d.mark (.forget v)).fades_display ?_)).trans (ih _)
    by_cases h : v = uri
    · simp [h]
    · simp [Lint.publications_of_ne h]

theorem shown_clearAway (uris : List LooseText) : ∀ d : Desk, d.shown <+: (clearAway d uris).shown := by
  induction uris with
  | nil =>
    intro d
    exact List.prefix_rfl
  | cons uri uris ih =>
    intro d
    have first : d.shown <+: d.shown ++ [.publish uri []] := List.prefix_append _ _
    exact first.trans (ih ((d.mark (.forget uri)).display [.publish uri []]))

theorem ledger_clearAway (uris : List LooseText) : ∀ d : Desk,
    (clearAway d uris).ledger = d.ledger.marks (uris.map .forget) := by
  induction uris with
  | nil =>
    intro d
    rfl
  | cons uri uris ih =>
    intro d
    exact ih ((d.mark (.forget uri)).display [.publish uri []])

theorem Face.perm_inOrder (f : Face) (k : Nat) : (f.inOrder k).Perm f.documents :=
  f.conditions.perm k f.documents

theorem Face.mem_inOrder (f : Face) (k : Nat) {uri : LooseText} : uri ∈ f.inOrder k ↔ uri ∈ f.documents :=
  (f.perm_inOrder k).mem_iff

theorem Face.desk_receive (f : Face) (k : Nat) (m : Message) :
    ∃ uris, (f.receive k m).desk = clearAway f.desk uris := by
  cases m with
  | closed uri => exact ⟨[uri], rfl⟩
  | configured payload =>
    unfold receive; dsimp only
    split
    · exact ⟨[], rfl⟩
    · rename_i new _
      unfold configure; dsimp only
      split
      · exact ⟨[], rfl⟩
      · exact ⟨f.inOrder k, rfl⟩
  | _ => exact ⟨[], rfl⟩

theorem Face.jobs_receive (f : Face) (k : Nat) (m : Message) : (f.receive k m).jobs = f.jobs := by
  cases m with
  | configured payload =>
    unfold receive; dsimp only
    split <;> rfl
  | _ => rfl

theorem Face.documents_receive (f : Face) (k : Nat) (m : Message) : (f.receive k m).documents = f.documents ∨
    (∃ uri, m.named? = some uri ∧ (f.receive k m).documents = insertDocument uri f.documents) ∨
    ∃ uri, (f.receive k m).documents = f.documents.filter (· != uri) := by
  cases m with
  | opened uri => exact .inr (.inl ⟨uri, rfl, rfl⟩)
  | saved uri => exact .inr (.inl ⟨uri, rfl, rfl⟩)
  | closed uri => exact .inr (.inr ⟨uri, rfl⟩)
  | configured payload =>
    unfold receive; dsimp only
    split <;> exact .inl rfl
  | _ => exact .inl rfl

/-- A message has the document ahead that it names, if any, or all open documents. -/
theorem ahead_receive (s : Session) (k : Nat) (m : Message) :
    (s.face.receive k m).ahead = m.named?.toList ∨ (s.face.receive k m).ahead = s.face.inOrder k := by
  cases m with
  | configured payload =>
    unfold Face.receive; dsimp only
    split
    · exact .inl rfl
    · unfold Face.configure; dsimp only
      split
      · exact .inr rfl
      · exact .inl rfl
  | _ => exact .inl rfl

namespace Begins
variable {s : Session} {m : Move} {f : Face}

theorem ledger (h : Begins s m f) : ∃ ms, f.desk.ledger = s.linter.ledger.marks ms := by
  cases h with
  | receive k m =>
    obtain ⟨uris, h⟩ := s.face.desk_receive k m
    exact ⟨_, (congrArg Desk.ledger h).trans (ledger_clearAway uris s.linter.desk)⟩
  | _ => exact ⟨[], rfl⟩

theorem shown_grows (h : Begins s m f) : s.linter.desk.shown <+: f.desk.shown := by
  cases h with
  | receive k m =>
    obtain ⟨uris, h⟩ := s.face.desk_receive k m
    exact h ▸ shown_clearAway uris s.linter.desk
  | ending i job outcome e shown left h hj he => exact (List.prefix_append _ _).trans (List.prefix_append _ _)
  | _ => exact List.prefix_rfl

theorem calls (h : Begins s m f) (uri : LooseText) :
    (f.desk.sheet uri).calls = (s.linter.desk.sheet uri).calls := by
  cases h with
  | receive k m =>
    obtain ⟨uris, h⟩ := s.face.desk_receive k m
    exact h ▸ (sheet_clearAway uri uris s.linter.desk).calls
  | _ => rfl

/-- Where no pass is current, nothing but an empty list is published. -/
theorem fades (h : Begins s m f) {uri : LooseText} (hc : ∀ n, s.linter.ledger.isCurrent uri n = false) :
    (s.linter.desk.sheet uri).Fades (f.desk.sheet uri) := by
  cases h with
  | receive k m =>
    obtain ⟨uris, h⟩ := s.face.desk_receive k m
    exact h ▸ sheet_clearAway uri uris s.linter.desk
  | turn i h => exact .refl _
  | ending i job outcome e shown left h hj he =>
    refine (s.linter.desk.fades_display ?_).trans (Desk.fades_display _ (publications_afterwards job.uri uri e))
    by_cases hu : job.uri = uri
    · subst hu
      rw [hc] at he
      simp [he.shown_of_past, publications]
    · simp [he.publications_of_ne hu]
  | report => exact .refl _
  | outside world => exact .refl _

end Begins

/-! ## What is published stays published -/

theorem published_grows {d e : Desk} (h : d.shown <+: e.shown) (uri : LooseText) :
    (d.sheet uri).published <+: (e.sheet uri).published :=
  h.filterMap _

theorem published_strides {f g : Face} (h : ReflTransGen Stride f g) (uri : LooseText) :
    (f.desk.sheet uri).published <+: (g.desk.sheet uri).published :=
  strides_keep (P := fun x => (f.desk.sheet uri).published <+: (x.desk.sheet uri).published)
    (fun _ _ hs hp => hp.trans (published_grows hs.shown_grows uri)) h List.prefix_rfl

theorem published_playAll (uri : LooseText) (ms : List Move) (s : Session) :
    s.published uri <+: (s.playAll ms).published uri := by
  refine playAll_keeps (P := fun t => s.published uri <+: t.published uri) (fun m _ t ht => ?_) List.prefix_rfl
  obtain ⟨f, hb, hs⟩ := t.play_strides m
  exact ht.trans ((published_grows hb.shown_grows uri).trans (published_strides hs uri))

end LintServer.Session
