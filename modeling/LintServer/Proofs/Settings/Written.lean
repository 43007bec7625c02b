import LintServer.Proofs.Settings.Reading
import LintServer.Proofs.Text.Cut

/-!
# Settings written and read

What is read at a key depends on nothing else in the payload, and is always valid. So valid
settings that are written at their keys are read back, with or without the key of the
section around them (`ofJson_exact`).
-/

namespace LintServer.Settings

/-! ## One reading at a key -/

section
variable {α : Type} {valid : Json → α → Prop} {default a b : α} {given : Option Json}

theorem Reads.keeps {P : α → Prop} (h : Reads valid default given a) (missing : P default)
    (values : ∀ j a, valid j a → P a) : P a := by
  cases h with
  | value h => exact values _ a h
  | invalid _ => exact missing
  | missing => exact missing

theorem Reads.unique (ha : Reads valid default given a) (hb : Reads valid default given b)
    (single : ∀ {j : Json} {a b : α}, valid j a → valid j b → a = b) : a = b := by
  cases ha with
  | value ha =>
    cases hb with
    | value hb => exact single ha hb
    | invalid hb => exact absurd ha (hb a)
  | invalid ha =>
    cases hb with
    | value hb => exact absurd hb (ha b)
    | invalid _ => rfl
  | missing =>
    cases hb
    rfl

end

section
variable {j : Json}

theorem IsFlag.unique {a b : Bool} (ha : IsFlag j a) (hb : IsFlag j b) : a = b :=
  Json.bool.inj (ha.symm.trans hb)

theorem IsPath.unique {a b : LooseText} (ha : IsPath j a) (hb : IsPath j b) : a = b := by
  obtain ⟨t, rfl, rfl⟩ := ha
  obtain ⟨u, same, rfl⟩ := hb
  rw [Json.str.inj same]

theorem IsPort.unique {a b : Int} (ha : IsPort j a) (hb : IsPort j b) : a = b :=
  Json.int.inj (ha.1.symm.trans hb.1)

theorem AreArgs.unique {a b : List LooseText} (ha : AreArgs j a) (hb : AreArgs j b) : a = b :=
  (List.map_inj_right fun _ _ => Json.str.inj).1 (Json.arr.inj (ha.symm.trans hb))

theorem IsTimeout.unique {a b : Double} (ha : IsTimeout j a) (hb : IsTimeout j b) : a = b := by
  obtain ⟨n, rfl, -, near⟩ | ⟨rfl, -⟩ := ha
  · obtain ⟨m, same, -, near'⟩ | ⟨same, -⟩ := hb
    · cases same
      exact Option.some.inj (near.symm.trans near')
    · cases same
  · obtain ⟨m, same, -⟩ | ⟨same, -⟩ := hb
    · cases same
    · exact Json.float.inj same

end

/-! ## The section -/

/-- The fields of the section: those of the value at its key where an object has that key, else those of the
payload itself. What is no object has no fields. -/
inductive InSection : Json → List (LooseText × Json) → Prop
  | keyed {fields : List (LooseText × Json)} {value : Json} (h : Json.field? "lucli" fields = some value) :
      InSection (.obj fields) (fieldsOf (some value))
  | bare {fields : List (LooseText × Json)} (h : Json.field? "lucli" fields = none) : InSection (.obj fields) fields
  | other {payload : Json} (h : ∀ fields, payload ≠ .obj fields) : InSection payload []

theorem inSection_sectionOf (payload : Json) : InSection payload (sectionOf payload) := by
  cases payload with
  | obj fields =>
    cases given : Json.field? "lucli" fields with
    | none =>
      have bare : sectionOf (.obj fields) = fields := by simp [sectionOf, given, fieldsOf]
      rw [bare]
      exact .bare given
    | some value =>
      have keyed : sectionOf (.obj fields) = fieldsOf (some value) := by simp [sectionOf, given]
      rw [keyed]
      exact .keyed given
  | _ => exact .other nofun

/-- Every setting is the same in both where the same stands at its key. -/
structure Apart (p q : Json) (s t : Settings) : Prop where
  path : Json.field? "path" (sectionOf p) = Json.field? "path" (sectionOf q) → s.path = t.path
  storagePath : Json.field? "storagePath" (sectionOf p) = Json.field? "storagePath" (sectionOf q) →
    s.storagePath = t.storagePath
  lintEnabled : lintValue? p "enabled" = lintValue? q "enabled" → s.lintEnabled = t.lintEnabled
  daemonEnabled : daemonValue? p "enabled" = daemonValue? q "enabled" → s.daemonEnabled = t.daemonEnabled
  daemonPort : daemonValue? p "port" = daemonValue? q "port" → s.daemonPort = t.daemonPort
  daemonArgs : daemonValue? p "args" = daemonValue? q "args" → s.daemonArgs = t.daemonArgs
  socketTimeout : daemonValue? p "timeout" = daemonValue? q "timeout" → s.socketTimeout = t.socketTimeout

theorem Configured.apart {p q : Json} {s t : Settings} (hs : Configured p s) (ht : Configured q t) : Apart p q s t where
  path same := hs.path.unique (same ▸ ht.path) IsPath.unique
  storagePath same := hs.storagePath.unique (same ▸ ht.storagePath) IsPath.unique
  lintEnabled same := hs.lintEnabled.unique (same ▸ ht.lintEnabled) IsFlag.unique
  daemonEnabled same := hs.daemonEnabled.unique (same ▸ ht.daemonEnabled) IsFlag.unique
  daemonPort same := hs.daemonPort.unique (same ▸ ht.daemonPort) IsPort.unique
  daemonArgs same := hs.daemonArgs.unique (same ▸ ht.daemonArgs) AreArgs.unique
  socketTimeout same := hs.socketTimeout.unique (same ▸ ht.socketTimeout) IsTimeout.unique

theorem Apart.eq {p : Json} {s t : Settings} (h : Apart p p s t) : s = t := by
  cases s
  cases t
  rw [Settings.mk.injEq]
  exact ⟨h.path rfl, h.storagePath rfl, h.lintEnabled rfl, h.daemonEnabled rfl, h.daemonPort rfl, h.daemonArgs rfl,
    h.socketTimeout rfl⟩

/-! ## Writing -/

/-- Settings that can be asked for: nothing is around their paths, and there is such a port and such a timeout. -/
structure Valid (s : Settings) : Prop where
  path : Text.trimmed s.path = s.path
  storagePath : Text.trimmed s.storagePath = s.storagePath
  daemonPort : 0 < s.daemonPort ∧ s.daemonPort < 65536
  socketTimeout : s.socketTimeout.isPositive = true

theorem trimmed_of_isPath {j : Json} {path : LooseText} (h : IsPath j path) : Text.trimmed path = path := by
  obtain ⟨t, -, rfl⟩ := h
  exact Text.trimmed_trimmed t

theorem isPositive_of_isTimeout {j : Json} {seconds : Double} (h : IsTimeout j seconds) :
    seconds.isPositive = true := by
  obtain ⟨n, -, pos, near⟩ | ⟨-, pos⟩ := h
  · exact Double.isPositive_of_ofInt? pos near
  · exact pos

theorem Configured.valid {payload : Json} {s : Settings} (h : Configured payload s) : s.Valid where
  path := h.path.keeps (P := fun path => Text.trimmed path = path) (by decide) fun _ _ => trimmed_of_isPath
  storagePath :=
    h.storagePath.keeps (P := fun path => Text.trimmed path = path) (by decide) fun _ _ => trimmed_of_isPath
  daemonPort := h.daemonPort.keeps (by decide) fun _ _ => And.right
  socketTimeout := h.socketTimeout.keeps (by decide +kernel) fun _ _ => isPositive_of_isTimeout

/-- The section that asks for these settings. -/
def json (s : Settings) : Json :=
  .obj [("path", .str s.path), ("storagePath", .str s.storagePath), ("lint", .obj [("enabled", .bool s.lintEnabled)]),
    ("daemon", .obj [("enabled", .bool s.daemonEnabled), ("port", .int s.daemonPort),
      ("args", .ofTexts s.daemonArgs), ("timeout", .float s.socketTimeout)])]

/-- Every setting stands at its key, in whatever order and beside whatever else. -/
structure Holds (payload : Json) (s : Settings) : Prop where
  path : Json.field? "path" (sectionOf payload) = some (.str s.path)
  storagePath : Json.field? "storagePath" (sectionOf payload) = some (.str s.storagePath)
  lintEnabled : lintValue? payload "enabled" = some (.bool s.lintEnabled)
  daemonEnabled : daemonValue? payload "enabled" = some (.bool s.daemonEnabled)
  daemonPort : daemonValue? payload "port" = some (.int s.daemonPort)
  daemonArgs : daemonValue? payload "args" = some (.ofTexts s.daemonArgs)
  socketTimeout : daemonValue? payload "timeout" = some (.float s.socketTimeout)

theorem holds_json (s : Settings) : Holds s.json s :=
  ⟨rfl, rfl, rfl, rfl, rfl, rfl, rfl⟩

theorem holds_keyed (s : Settings) : Holds (.obj [("lucli", s.json)]) s :=
  ⟨rfl, rfl, rfl, rfl, rfl, rfl, rfl⟩

theorem ofJson_of_holds {nesting : Json.Nesting} {payload : Json} {s : Settings} (h : Holds payload s)
    (valid : s.Valid) : ofJson nesting payload = .ok s := by
  refine ofJson_eq_ok_iff.2 ⟨?_, ?_, ?_, ?_, ?_, ?_, ?_⟩
  · rw [h.daemonPort]
    exact if_pos valid.daemonPort
  · rw [h.socketTimeout, readTimeout, if_pos valid.socketTimeout]
  · rw [h.path, readPath, valid.path]
  · rw [h.storagePath, readPath, valid.storagePath]
  · rw [h.lintEnabled]
    rfl
  · rw [h.daemonEnabled]
    rfl
  · rw [h.daemonArgs, Json.ofTexts, readArgs, texts?_eq_some_iff.2 rfl]
    rfl

/-- **Settings are read exactly and apart.** At every key the value there is read if it is valid, else the default,
and what is read is the same from any payload that has the same there. Settings that were read are valid, and valid
ones that stand in a payload at their keys are read back, as they are if they are written with or without the key of
the section around them. -/
theorem ofJson_exact (nesting : Json.Nesting) :
    (∀ payload s, ofJson nesting payload = .ok s → InSection payload (sectionOf payload) ∧ Configured payload s ∧
      (∀ t, Configured payload t → t = s) ∧ (∀ q t, ofJson nesting q = .ok t → Apart payload q s t) ∧ s.Valid) ∧
    ∀ s : Settings, s.Valid → ofJson nesting s.json = .ok s ∧ ofJson nesting (.obj [("lucli", s.json)]) = .ok s ∧
      ∀ payload, Holds payload s → ofJson nesting payload = .ok s := by
  refine ⟨fun payload s read => ?_, fun s valid => ?_⟩
  · have configured := configured_of_ofJson read
    exact ⟨inSection_sectionOf payload, configured, fun t other => (other.apart configured).eq,
      fun q t given => configured.apart (configured_of_ofJson given), configured.valid⟩
  · exact ⟨ofJson_of_holds s.holds_json valid, ofJson_of_holds s.holds_keyed valid,
      fun payload holds => ofJson_of_holds holds valid⟩

/-- A port and a timeout are read beside a path that is no text, a list that is no list of texts, and a flag
that is a number; half of a surrogate pair in a path stays there. -/
theorem ofJson_exact_partly :
    let daemon : Json := .obj [("enabled", .int 1), ("port", .int 65535), ("args", .arr [.str "ok", .int 3]),
      ("timeout", .int 5)]
    let storage : LooseText := ⟨[.char '/', .half 0]⟩
    let payload : Json := .obj [("path", .str "ignored"), ("lucli", .obj [("path", .int 42),
      ("storagePath", .str (" " ++ storage ++ "\t")), ("lint", .arr []), ("daemon", daemon)])]
    let s : Settings := { storagePath := storage, daemonPort := 65535, socketTimeout := Double.ofQuotient 5 1 }
    ofJson {} payload = .ok s ∧ Configured payload s ∧ s.Valid ∧ ofJson {} s.json = .ok s := by
  intro daemon storage payload s
  have read : ofJson {} payload = .ok s := by decide +kernel
  obtain ⟨-, configured, -, -, valid⟩ := (ofJson_exact {}).1 payload s read
  exact ⟨read, configured, valid, ((ofJson_exact {}).2 s valid).1⟩

end LintServer.Settings
