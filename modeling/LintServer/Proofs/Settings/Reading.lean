import LintServer.Proofs.Json.Shown
import LintServer.Proofs.Number.Range
import LintServer.Settings

/-!
# Reading settings

Every setting is the value at its key if that is one, else its default. Only two
values at a key keep the others from being read: a whole number of seconds that
no double is near, and a port that is refused and cannot be shown, nested too deep
or with too many digits (`ofJson_ok_iff`).
-/

namespace LintServer.Settings

/-! ## What a setting may be -/

/-- What is read at a key: the value there if it is valid, else the default. -/
inductive Reads {α : Type} (valid : Json → α → Prop) (default : α) : Option Json → α → Prop
  | value {j : Json} {a : α} (h : valid j a) : Reads valid default (some j) a
  | invalid {j : Json} (h : ∀ a, ¬ valid j a) : Reads valid default (some j) default
  | missing : Reads valid default none default

def IsFlag (j : Json) (b : Bool) : Prop :=
  j = .bool b

def IsPath (j : Json) (path : LooseText) : Prop :=
  ∃ t : LooseText, j = .str t ∧ path = Text.trimmed t

def IsPort (j : Json) (port : Int) : Prop :=
  j = .int port ∧ 0 < port ∧ port < 65536

def AreArgs (j : Json) (args : List LooseText) : Prop :=
  j = .arr (args.map .str)

def IsTimeout (j : Json) (seconds : Double) : Prop :=
  (∃ n : Int, j = .int n ∧ 0 < n ∧ Double.ofInt? n = some seconds) ∨ j = .float seconds ∧ seconds.isPositive = true

/-- The value at a key of the daemon's part. -/
def daemonValue? (payload : Json) (key : LooseText) : Option Json :=
  Json.field? key (fieldsOf (Json.field? "daemon" (sectionOf payload)))

def lintValue? (payload : Json) (key : LooseText) : Option Json :=
  Json.field? key (fieldsOf (Json.field? "lint" (sectionOf payload)))

/-- Settings that hold at every key what is read there, whatever stands at the others. -/
structure Configured (payload : Json) (s : Settings) : Prop where
  path : Reads IsPath "" (Json.field? "path" (sectionOf payload)) s.path
  storagePath : Reads IsPath "" (Json.field? "storagePath" (sectionOf payload)) s.storagePath
  lintEnabled : Reads IsFlag true (lintValue? payload "enabled") s.lintEnabled
  daemonEnabled : Reads IsFlag false (daemonValue? payload "enabled") s.daemonEnabled
  daemonPort : Reads IsPort 10000 (daemonValue? payload "port") s.daemonPort
  daemonArgs : Reads AreArgs ["daemon", "--port", "\x7bport\x7d"] (daemonValue? payload "args") s.daemonArgs
  socketTimeout : Reads IsTimeout (Double.ofQuotient 30 1) (daemonValue? payload "timeout") s.socketTimeout

/-! ## Every key on its own -/

theorem reads_readFlag (default : Bool) (given : Option Json) :
    Reads IsFlag default given (readFlag default given) := by
  cases given with
  | none => exact .missing
  | some j =>
    cases j with
    | bool b => exact .value rfl
    | _ => exact .invalid fun b h => nomatch h

theorem reads_readPath (given : Option Json) : Reads IsPath "" given (readPath given) := by
  cases given with
  | none => exact .missing
  | some j =>
    cases j with
    | str t => exact .value ⟨t, rfl, rfl⟩
    | _ => exact .invalid fun p h => by obtain ⟨t, e, -⟩ := h; cases e

theorem reads_readPort {nesting : Json.Nesting} {default port : Int} {given : Option Json}
    (h : readPort nesting default given = .ok port) : Reads IsPort default given port := by
  have refused {j : Json} (valid : ∀ n, ¬ IsPort j n) (h : refusePort nesting default j = .ok port) :
      Reads IsPort default (some j) port := by
    unfold refusePort at h
    split at h <;> cases h
    exact .invalid valid
  cases given with
  | none =>
    cases h
    exact .missing
  | some j =>
    cases j with
    | int n =>
      unfold readPort at h
      dsimp only at h
      split at h
      · rename_i range
        cases h
        exact .value ⟨rfl, range⟩
      · rename_i range
        refine refused (fun m valid => range ?_) h
        obtain ⟨e, range⟩ := valid
        cases e
        exact range
    | _ => exact refused (fun m valid => nomatch valid.1) h

theorem texts?_eq_some_iff {items : List Json} {args : List LooseText} :
    texts? items = some args ↔ items = args.map .str := by
  induction items generalizing args with
  | nil =>
    rw [texts?, Option.some.injEq, eq_comm, ← List.map_eq_nil_iff (f := Json.str), eq_comm]
  | cons item items ih =>
    constructor
    · intro h
      cases item with
      | str t =>
        obtain ⟨rest, found, rfl⟩ := Option.map_eq_some_iff.1 h
        rw [ih.1 found, List.map_cons]
      | _ => cases h
    · intro h
      cases args with
      | nil => cases h
      | cons t ts =>
        cases h
        rw [texts?, ih.2 rfl]
        rfl

theorem reads_readArgs (default : List LooseText) (given : Option Json) :
    Reads AreArgs default given (readArgs default given) := by
  cases given with
  | none => exact .missing
  | some j =>
    cases j with
    | arr items =>
      rw [readArgs]
      cases found : texts? items with
      | some args => exact .value (congrArg Json.arr (texts?_eq_some_iff.1 found))
      | none =>
        refine .invalid fun args valid => ?_
        rw [texts?_eq_some_iff.2 (Json.arr.inj valid)] at found
        cases found
    | _ => exact .invalid fun args h => nomatch h

theorem reads_readTimeout {default seconds : Double} {given : Option Json}
    (h : readTimeout default given = .ok seconds) : Reads IsTimeout default given seconds := by
  cases given with
  | none =>
    cases h
    exact .missing
  | some j =>
    cases j with
    | int n =>
      unfold readTimeout at h
      dsimp only at h
      split at h
      · rename_i pos
        split at h <;> cases h
        rename_i near
        exact .value (.inl ⟨n, rfl, pos, near⟩)
      · rename_i pos
        cases h
        refine .invalid fun x valid => ?_
        rcases valid with ⟨m, e, range, -⟩ | ⟨e, -⟩
        · cases e
          exact pos range
        · cases e
    | float x =>
      unfold readTimeout at h
      dsimp only at h
      cases h
      split
      · rename_i pos
        exact .value (.inr ⟨rfl, pos⟩)
      · rename_i pos
        refine .invalid fun y valid => ?_
        rcases valid with ⟨m, e, -⟩ | ⟨e, range⟩
        · cases e
        · cases e
          exact pos range
    | _ =>
      cases h
      refine .invalid fun y valid => ?_
      rcases valid with ⟨m, e, -⟩ | ⟨e, -⟩ <;> cases e

/-! ## The values that keep settings from being read -/

section
variable (nesting : Json.Nesting)

theorem showable_port {n : Int} (range : 0 < n ∧ n < 65536) : Json.Showable nesting.showing (.int n) := by
  obtain ⟨depth, two⟩ := Nat.exists_eq_add_of_le' (Nat.le_trans nesting.two_le_reading nesting.reading_le_showing)
  rw [two]
  refine .int (Nat.lt_of_lt_of_le ?_ (Nat.pow_le_pow_right (by decide) (by decide : 5 ≤ Text.NumeralTooLong.limit)))
  omega

theorem refusePort_ok_iff (default : Int) (j : Json) :
    (∃ port, refusePort nesting default j = .ok port) ↔ Json.Showable nesting.showing j := by
  rw [← Json.shown_ok_iff, refusePort]
  cases j.shown nesting.showing with
  | ok text => exact ⟨fun _ => ⟨text, rfl⟩, fun _ => ⟨default, rfl⟩⟩
  | error e =>
    constructor
    · rintro ⟨_, h⟩
      cases h
    · rintro ⟨_, h⟩
      cases h

theorem readPort_ok_iff (default : Int) (given : Option Json) :
    (∃ port, readPort nesting default given = .ok port) ↔ ∀ j, given = some j → Json.Showable nesting.showing j := by
  cases given with
  | none => exact ⟨fun _ j h => (nomatch h), fun _ => ⟨default, rfl⟩⟩
  | some j =>
    simp only [Option.some.injEq, forall_eq']
    cases j with
    | int n =>
      by_cases range : 0 < n ∧ n < 65536
      · exact ⟨fun _ => showable_port nesting range, fun _ => ⟨n, if_pos range⟩⟩
      · rw [readPort, if_neg range]
        exact refusePort_ok_iff nesting default (.int n)
    | _ => exact refusePort_ok_iff nesting default _

end

theorem readTimeout_ok_iff (default : Double) (given : Option Json) :
    (∃ seconds, readTimeout default given = .ok seconds) ↔
      ∀ n : Int, given = some (.int n) → n.toNat < 2 ^ 1024 - 2 ^ 970 := by
  cases given with
  | none => exact ⟨fun _ n h => (nomatch h), fun _ => ⟨default, rfl⟩⟩
  | some j =>
    cases j with
    | int n =>
      simp only [Option.some.injEq, Json.int.injEq, forall_eq']
      by_cases pos : 0 < n
      · have size : n.natAbs = n.toNat := by omega
        rw [readTimeout, if_pos pos, ← Nat.not_le, ← size, ← Double.ofInt?_eq_none_iff]
        cases Double.ofInt? n <;> simp
      · rw [readTimeout, if_neg pos, Int.toNat_of_nonpos (by omega)]
        exact ⟨fun _ => by decide +kernel, fun _ => ⟨default, rfl⟩⟩
    | _ => exact ⟨fun _ n h => (nomatch h), fun _ => ⟨_, rfl⟩⟩

/-! ## All keys together -/

section
variable {nesting : Json.Nesting}

theorem ofJson_eq_ok_iff {payload : Json} {s : Settings} :
    ofJson nesting payload = .ok s ↔
      readPort nesting 10000 (daemonValue? payload "port") = .ok s.daemonPort ∧
        readTimeout (Double.ofQuotient 30 1) (daemonValue? payload "timeout") = .ok s.socketTimeout ∧
        readPath (Json.field? "path" (sectionOf payload)) = s.path ∧
        readPath (Json.field? "storagePath" (sectionOf payload)) = s.storagePath ∧
        readFlag true (lintValue? payload "enabled") = s.lintEnabled ∧
        readFlag false (daemonValue? payload "enabled") = s.daemonEnabled ∧
        readArgs ["daemon", "--port", "\x7bport\x7d"] (daemonValue? payload "args") = s.daemonArgs := by
  constructor
  · intro h
    unfold ofJson at h
    dsimp only at h
    split at h
    · cases h
    · rename_i port hp
      split at h
      · cases h
      · rename_i timeout ht
        cases h
        exact ⟨hp, ht, rfl, rfl, rfl, rfl, rfl⟩
  · obtain ⟨path, storagePath, lintEnabled, daemonEnabled, daemonPort, daemonArgs, socketTimeout⟩ := s
    rintro ⟨hp, ht, rfl, rfl, rfl, rfl, rfl⟩
    unfold ofJson
    simp only [daemonValue?, lintValue?] at hp ht ⊢
    simp only [hp, ht]

theorem configured_of_ofJson {payload : Json} {s : Settings} (h : ofJson nesting payload = .ok s) :
    Configured payload s := by
  obtain ⟨port, timeout, path, storagePath, lintEnabled, daemonEnabled, args⟩ := ofJson_eq_ok_iff.1 h
  exact {
    path := path ▸ reads_readPath _
    storagePath := storagePath ▸ reads_readPath _
    lintEnabled := lintEnabled ▸ reads_readFlag _ _
    daemonEnabled := daemonEnabled ▸ reads_readFlag _ _
    daemonPort := reads_readPort port
    daemonArgs := args ▸ reads_readArgs _ _
    socketTimeout := reads_readTimeout timeout }

end

/-- **Settings are read** from every value, with the default in place of every value that is not valid,
unless the timeout is a whole number beyond the doubles or the port cannot be shown: it is nested too deep or
holds a number that is too long. -/
theorem ofJson_ok_iff (nesting : Json.Nesting) (payload : Json) :
    (∃ s, ofJson nesting payload = .ok s ∧ Configured payload s) ↔
      (∀ n : Int, daemonValue? payload "timeout" = some (.int n) → n.toNat < 2 ^ 1024 - 2 ^ 970) ∧
        ∀ j, daemonValue? payload "port" = some j → Json.Showable nesting.showing j := by
  rw [← readTimeout_ok_iff (Double.ofQuotient 30 1), ← readPort_ok_iff nesting 10000]
  constructor
  · rintro ⟨s, h, -⟩
    obtain ⟨port, timeout, -⟩ := ofJson_eq_ok_iff.1 h
    exact ⟨⟨_, timeout⟩, ⟨_, port⟩⟩
  · rintro ⟨⟨seconds, timeout⟩, ⟨number, port⟩⟩
    have h := ofJson_eq_ok_iff (s := ⟨_, _, _, _, number, _, seconds⟩).2 ⟨port, timeout, rfl, rfl, rfl, rfl, rfl⟩
    exact ⟨_, h, configured_of_ofJson h⟩

/-- A timeout of `10 ^ 400` seconds is not replaced by the default. -/
theorem not_always_read : ¬ ∀ nesting payload, ∃ s, ofJson nesting payload = .ok s ∧ Configured payload s := by
  intro h
  obtain ⟨s, read, -⟩ := h {} (.obj [("daemon", .obj [("timeout", .int (10 ^ 400))])])
  have refused : ofJson {} (.obj [("daemon", .obj [("timeout", .int (10 ^ 400))])]) = .error .timeout := by
    decide +kernel
  rw [refused] at read
  cases read

end LintServer.Settings
