import CurveFit.Cli.Run
import CurveFit.Proofs.Fit.Gate
import CurveFit.Proofs.Fit.Setup
import CurveFit.Proofs.Json.Records

/-!
# The layers of settings

A layer of settings gives some fields and leaves the others to the layers below it
(`SettingsLayer.onto`).  What a settings file and an environment give is said by relations,
`FitSettings.FileSays` and `FitSettings.EnvironmentSays`, which hold of no layer where something
cannot be read; reading them succeeds exactly where they hold of a layer.  The texts of variables have
relations of their own, `FitSettings.NumeralSays` and `FitSettings.SwitchSays`.  So the settings of a
run are known field by field (`Cli.World.settings_layered`).
-/

namespace CurveFit

open Json Cli

/-- The fields that one layer of settings gives. -/
structure SettingsLayer where
  maxIterations : Option Nat
  minDeltaChi2 : Option Float
  initialLambda : Option Float
  simdEnabled : Option Bool
  truncateRatio : Option Float
  collectTrace : Option Bool

namespace SettingsLayer

/-- The layer that gives nothing. -/
def silent : SettingsLayer := ⟨none, none, none, none, none, none⟩

/-- The settings with the fields that a layer gives. -/
def onto (l : SettingsLayer) (s : FitSettings) : FitSettings :=
  { maxIterations := l.maxIterations.getD s.maxIterations
    minDeltaChi2 := l.minDeltaChi2.getD s.minDeltaChi2
    initialLambda := l.initialLambda.getD s.initialLambda
    simdEnabled := l.simdEnabled.getD s.simdEnabled
    truncateRatio := l.truncateRatio.getD s.truncateRatio
    collectTrace := l.collectTrace.getD s.collectTrace }

end SettingsLayer

/-- The fields that flags give. -/
def SettingsFlags.layer (f : SettingsFlags) : SettingsLayer :=
  { maxIterations := f.maxIterations
    minDeltaChi2 := f.minDeltaChi2
    initialLambda := f.initialLambda
    simdEnabled := if f.noSimd then some false else .none
    truncateRatio := f.truncateRatio
    collectTrace := .none }

namespace FitSettings

variable {s t : FitSettings}

theorem validate_ok_iff : s.validate = .ok () ↔ s.Valid :=
  validate_eq_ok_iff.trans issue?_eq_none_iff

theorem withFlags_eq (s : FitSettings) (f : SettingsFlags) : s.withFlags f = f.layer.onto s := by
  unfold withFlags SettingsFlags.layer SettingsLayer.onto
  cases f.noSimd <;> rfl

/-! ## The settings file -/

/-- A record of settings gives the fields of a layer: each at most once, with a value of its
type. -/
structure RecordSays (entries : List (String × Value)) (l : SettingsLayer) : Prop where
  maxIterations : Reads Value.count? (under "max_iterations" entries) l.maxIterations
  minDeltaChi2 : Reads Value.real? (under "min_delta_chi2" entries) l.minDeltaChi2
  initialLambda : Reads Value.real? (under "initial_lambda" entries) l.initialLambda
  simdEnabled : Reads Value.bool? (under "simd_enabled" entries) l.simdEnabled
  truncateRatio : Reads Value.real? (under "truncate_ratio" entries) l.truncateRatio
  collectTrace : Reads Value.bool? (under "collect_trace" entries) l.collectTrace

/-- The fields may come in any order. -/
theorem RecordSays.perm {entries entries' : List (String × Value)} {l : SettingsLayer}
    (hperm : entries.Perm entries') (h : RecordSays entries l) : RecordSays entries' l :=
  ⟨h.maxIterations.perm hperm, h.minDeltaChi2.perm hperm, h.initialLambda.perm hperm,
    h.simdEnabled.perm hperm, h.truncateRatio.perm hperm, h.collectTrace.perm hperm⟩

/-- The text of a file is a record that gives the fields of a layer. -/
def FileSays (text : String) (l : SettingsLayer) : Prop :=
  ∃ v entries, Json.read? text = some v ∧ v.entries? fieldNames = some entries ∧
    RecordSays entries l

/-- Two texts are records with the same fields, in one order or another. -/
def SameFields (text text' : String) : Prop :=
  ∃ v v' entries entries', Json.read? text = some v ∧ v.entries? fieldNames = some entries ∧
    Json.read? text' = some v' ∧ v'.entries? fieldNames = some entries' ∧ entries.Perm entries'

theorem FileSays.of_sameFields {text text' : String} {l : SettingsLayer}
    (h : FileSays text l) (hsame : SameFields text text') : FileSays text' l := by
  obtain ⟨w, given, hw, hgiven, hsays⟩ := h
  obtain ⟨v, v', entries, entries', hv, hentries, hv', hentries', hperm⟩ := hsame
  cases hw.symm.trans hv
  cases hgiven.symm.trans hentries
  exact ⟨v', entries', hv', hentries', hsays.perm hperm⟩

theorem ofValue?_eq_some_iff {v : Value} : ofValue? v = some s ↔
    ∃ entries l, v.entries? fieldNames = some entries ∧ RecordSays entries l ∧
      l.onto default = s := by
  have hnames : fieldNames.Nodup := by decide
  have hfields : ∀ {entries : List (String × Value)} {a b c d e f : Option Value},
      fieldNames.map (fun name => under name entries) = [a, b, c, d, e, f].map Option.toList ↔
        under "max_iterations" entries = a.toList ∧ under "min_delta_chi2" entries = b.toList ∧
        under "initial_lambda" entries = c.toList ∧ under "simd_enabled" entries = d.toList ∧
        under "truncate_ratio" entries = e.toList ∧ under "collect_trace" entries = f.toList := by
    simp [fieldNames]
  unfold ofValue?
  constructor
  · intro h
    obtain ⟨fields, hread, h⟩ := Option.bind_eq_some_iff.mp h
    obtain ⟨entries, hentries, hunder⟩ := (fields?_eq_some_iff hnames).mp hread
    match fields, hunder with
    | [a, b, c, d, e, f], hunder =>
      simp only [Option.bind_eq_bind, Option.bind_eq_some_iff, withDefault_eq_some_iff] at h
      obtain ⟨_, ⟨_, ha, rfl⟩, _, ⟨_, hb, rfl⟩, _, ⟨_, hc, rfl⟩, _, ⟨_, hd, rfl⟩, _, ⟨_, he, rfl⟩,
        _, ⟨_, hf, rfl⟩, h⟩ := h
      cases h
      obtain ⟨ha', hb', hc', hd', he', hf'⟩ := hfields.mp hunder
      exact ⟨entries, ⟨_, _, _, _, _, _⟩, hentries,
        ⟨ha' ▸ ha, hb' ▸ hb, hc' ▸ hc, hd' ▸ hd, he' ▸ he, hf' ▸ hf⟩, rfl⟩
  · rintro ⟨entries, l, hentries, hsays, rfl⟩
    obtain ⟨a, ha⟩ := hsays.maxIterations.exists_field
    obtain ⟨b, hb⟩ := hsays.minDeltaChi2.exists_field
    obtain ⟨c, hc⟩ := hsays.initialLambda.exists_field
    obtain ⟨d, hd⟩ := hsays.simdEnabled.exists_field
    obtain ⟨e, he⟩ := hsays.truncateRatio.exists_field
    obtain ⟨f, hf⟩ := hsays.collectTrace.exists_field
    have hread := (fields?_eq_some_iff hnames).mpr
      ⟨entries, hentries, hfields.mpr ⟨ha, hb, hc, hd, he, hf⟩⟩
    refine Option.bind_eq_some_iff.mpr ⟨_, hread, ?_⟩
    simp only [Option.bind_eq_bind, Option.bind_eq_some_iff, withDefault_eq_some_iff]
    exact ⟨_, ⟨_, ha ▸ hsays.maxIterations, rfl⟩, _, ⟨_, hb ▸ hsays.minDeltaChi2, rfl⟩,
      _, ⟨_, hc ▸ hsays.initialLambda, rfl⟩, _, ⟨_, hd ▸ hsays.simdEnabled, rfl⟩,
      _, ⟨_, he ▸ hsays.truncateRatio, rfl⟩, _, ⟨_, hf ▸ hsays.collectTrace, rfl⟩, rfl⟩

theorem ofText_eq_ok_iff {text : String} : ofText text = .ok s ↔
    ∃ l, FileSays text l ∧ (l.onto default).Valid ∧ l.onto default = s := by
  unfold ofText
  cases hread : (Json.read? text).bind ofValue? with
  | none =>
    constructor
    · exact nofun
    · rintro ⟨l, ⟨v, entries, hv, hentries, hsays⟩, -, -⟩
      have hvalue := ofValue?_eq_some_iff.mpr ⟨entries, l, hentries, hsays, rfl⟩
      rw [hv, Option.bind_some, hvalue] at hread
      cases hread
  | some t =>
    obtain ⟨v, hv, hvalue⟩ := Option.bind_eq_some_iff.mp hread
    constructor
    · intro h
      obtain ⟨_, hvalid, hpure⟩ := bind_eq_ok_iff.mp h
      cases hpure
      obtain ⟨entries, l, hentries, hsays, rfl⟩ := ofValue?_eq_some_iff.mp hvalue
      exact ⟨l, ⟨v, entries, hv, hentries, hsays⟩, validate_ok_iff.mp hvalid, rfl⟩
    · rintro ⟨l, ⟨v', entries, hv', hentries, hsays⟩, hvalid, rfl⟩
      obtain rfl : v = v' := Option.some.inj (hv.symm.trans hv')
      have hsame := ofValue?_eq_some_iff.mpr ⟨entries, l, hentries, hsays, rfl⟩
      obtain rfl : t = l.onto default := Option.some.inj (hvalue.symm.trans hsame)
      exact bind_eq_ok_iff.mpr ⟨(), validate_ok_iff.mpr hvalid, rfl⟩

/-- The flags name no settings file, or one that exists and gives the fields of a layer. -/
def ConfigSays (file : String → Option String) (config : Option String) (l : SettingsLayer) :
    Prop :=
  match config with
  | none => l = .silent
  | some path => ∃ text, file path = some text ∧ FileSays text l

/-- Two settings files have the same fields, in one order or another. -/
def SameConfig (config : Option String) (file file' : String → Option String) : Prop :=
  ∀ path ∈ config, ∀ text, file path = some text →
    ∃ text', file' path = some text' ∧ SameFields text text'

theorem ConfigSays.of_sameConfig {file file' : String → Option String} {config : Option String}
    {l : SettingsLayer} (h : ConfigSays file config l) (hsame : SameConfig config file file') :
    ConfigSays file' config l := by
  cases config with
  | none => exact h
  | some path =>
    obtain ⟨text, htext, hsays⟩ := h
    obtain ⟨text', htext', hfields⟩ := hsame path rfl text htext
    exact ⟨text', htext', hsays.of_sameFields hfields⟩

theorem base_eq_ok_iff {file : String → Option String} {flags : SettingsFlags} :
    base file flags = .ok s ↔ ∃ l, ConfigSays file flags.config l ∧
      (l.onto default).Valid ∧ l.onto default = s := by
  unfold base ConfigSays
  cases flags.config with
  | none =>
    have hvalid : (SettingsLayer.silent.onto default).Valid :=
      issue?_eq_none_iff.mp (by decide +kernel)
    constructor
    · rintro ⟨⟩
      exact ⟨_, rfl, hvalid, rfl⟩
    · rintro ⟨_, rfl, -, rfl⟩
      rfl
  | some path =>
    cases hfile : file path with
    | none => simp [ofFile, hfile]
    | some text =>
      simp only [ofFile, hfile, ofText_eq_ok_iff, Option.some.injEq, exists_eq_left']

/-! ## The texts of variables -/

/-- A text is a numeral, blanks around it apart. -/
def NumeralSays {β : Type} (read? : List Char → Option β) (raw : String) (b : β) : Prop :=
  ∃ core, Text.Trimmed raw.toList core ∧ read? core = some b

theorem readVariable_eq_ok_iff {β : Type} {read? : List Char → Option β} {key raw : String}
    {b : β} : readVariable read? key raw = .ok b ↔ NumeralSays read? raw b := by
  unfold readVariable NumeralSays
  rw [Text.exists_trimmed_iff]
  cases read? (Text.trim raw.toList) <;> simp

/-- The words that switch on, and those that switch off. -/
def switchWords : Bool → List String
  | true => ["1", "true", "on", "yes"]
  | false => ["0", "false", "off", "no"]

/-- A text is a word that switches on or off, blanks around it and the case of ASCII letters apart. -/
def SwitchSays (raw : String) (b : Bool) : Prop :=
  ∃ core, Text.Trimmed raw.toList core ∧ String.ofList (core.map Char.toLower) ∈ switchWords b

theorem switchSays_iff {raw : String} {b : Bool} : SwitchSays raw b ↔
    String.ofList ((Text.trim raw.toList).map Char.toLower) ∈ switchWords b :=
  Text.exists_trimmed_iff (P := fun core => String.ofList (core.map Char.toLower) ∈ switchWords b)

instance (raw : String) (b : Bool) : Decidable (SwitchSays raw b) :=
  decidable_of_iff _ switchSays_iff.symm

theorem SwitchSays.unique {raw : String} {b b' : Bool} (h : SwitchSays raw b)
    (h' : SwitchSays raw b') : b = b' := by
  have hapart : ∀ word ∈ switchWords true, word ∉ switchWords false := by decide
  rw [switchSays_iff] at h h'
  cases b <;> cases b'
  · rfl
  · exact absurd h (hapart _ h')
  · exact absurd h' (hapart _ h)
  · rfl

/-- **A switch** is on or off where its text is one of the eight words, and refused elsewhere. -/
theorem readSwitch_cases (key raw : String) :
    (∃ b, SwitchSays raw b ∧ readSwitch key raw = .ok b) ∨
      (∀ b, ¬ SwitchSays raw b) ∧ readSwitch key raw = .error (.notASwitch key raw) := by
  have hread : readSwitch key raw =
      if SwitchSays raw true then .ok true
      else if SwitchSays raw false then .ok false
      else .error (.notASwitch key raw) := by
    simp only [switchSays_iff, ← List.contains_iff_mem]
    rfl
  rw [hread]
  by_cases hon : SwitchSays raw true
  · exact .inl ⟨true, hon, if_pos hon⟩
  · rw [if_neg hon]
    by_cases hoff : SwitchSays raw false
    · exact .inl ⟨false, hoff, if_pos hoff⟩
    · exact .inr ⟨Bool.forall_bool.mpr ⟨hoff, hon⟩, if_neg hoff⟩

theorem readSwitch_eq_ok_iff {key raw : String} {b : Bool} :
    readSwitch key raw = .ok b ↔ SwitchSays raw b := by
  rcases readSwitch_cases key raw with ⟨b', hsays, hread⟩ | ⟨hnone, hread⟩
  · rw [hread, Except.ok.injEq]
    constructor
    · rintro rfl
      exact hsays
    · exact fun h => hsays.unique h
  · rw [hread]
    exact ⟨nofun, fun h => absurd h (hnone b)⟩

/-! ## The environment -/

/-- What a variable gives: nothing where it is not set, else what its text says. -/
def VariableSays {β : Type} (lookup : String → Option String) (name : String)
    (meaning : String → β → Prop) (o : Option β) : Prop :=
  Option.Rel meaning (lookup name) o

theorem VariableSays.exists_of_set {β : Type} {lookup : String → Option String} {name raw : String}
    {meaning : String → β → Prop} {o : Option β} (h : VariableSays lookup name meaning o)
    (hset : lookup name = some raw) : ∃ b, o = some b ∧ meaning raw b := by
  unfold VariableSays at h
  rw [hset] at h
  obtain ⟨hraw⟩ := h
  exact ⟨_, rfl, hraw⟩

/-- The variables of an environment give the fields of a layer: each one that is set can be read. -/
structure EnvironmentSays (lookup : String → Option String) (l : SettingsLayer) : Prop where
  maxIterations :
    VariableSays lookup "LMFIT_MAX_ITERATIONS" (NumeralSays Text.readCount?) l.maxIterations
  minDeltaChi2 :
    VariableSays lookup "LMFIT_MIN_DELTA_CHI2" (NumeralSays Text.readNumber?) l.minDeltaChi2
  initialLambda :
    VariableSays lookup "LMFIT_INITIAL_LAMBDA" (NumeralSays Text.readNumber?) l.initialLambda
  simdEnabled : VariableSays lookup "LMFIT_SIMD" SwitchSays l.simdEnabled
  truncateRatio :
    VariableSays lookup "LMFIT_TRUNCATE_RATIO" (NumeralSays Text.readNumber?) l.truncateRatio
  collectTrace : l.collectTrace = none

/-- **One variable.**  It is passed over where it is not set, and has to be read where it is. -/
theorem applyVariables_cons {β : Type} {lookup : String → Option String} {v : Variable}
    {rest : List Variable} {read : String → Except SettingsIssue β} {meaning : String → β → Prop}
    (hmeaning : ∀ {raw b}, read raw = .ok b ↔ meaning raw b)
    (put : FitSettings → Option β → FitSettings) (hnone : ∀ s, put s none = s)
    (happly : ∀ s raw, v.apply s raw = (read raw).map fun b => put s (some b)) :
    applyVariables lookup (v :: rest) s = (t, none) ↔
      ∃ o, VariableSays lookup v.name meaning o ∧
        applyVariables lookup rest (put s o) = (t, none) := by
  unfold VariableSays
  rw [applyVariables]
  cases lookup v.name with
  | none =>
    constructor
    · intro h
      exact ⟨none, .none, (hnone s).symm ▸ h⟩
    · rintro ⟨_, ⟨⟩, h⟩
      rwa [hnone] at h
  | some raw =>
    simp only [happly]
    cases hread : read raw with
    | error issue =>
      constructor
      · exact nofun
      · rintro ⟨_, ⟨hraw⟩, -⟩
        cases hread.symm.trans (hmeaning.mpr hraw)
    | ok b =>
      constructor
      · intro h
        exact ⟨some b, .some (hmeaning.mp hread), h⟩
      · rintro ⟨_, ⟨hraw⟩, h⟩
        cases hread.symm.trans (hmeaning.mpr hraw)
        exact h

/-- All variables, in the order they are applied. -/
theorem applyVariables_eq_iff {lookup : String → Option String} :
    applyVariables lookup environmentVariables s = (t, none) ↔
      ∃ a, VariableSays lookup "LMFIT_MAX_ITERATIONS" (NumeralSays Text.readCount?) a ∧
      ∃ b, VariableSays lookup "LMFIT_MIN_DELTA_CHI2" (NumeralSays Text.readNumber?) b ∧
      ∃ c, VariableSays lookup "LMFIT_INITIAL_LAMBDA" (NumeralSays Text.readNumber?) c ∧
      ∃ d, VariableSays lookup "LMFIT_SIMD" SwitchSays d ∧
      ∃ e, VariableSays lookup "LMFIT_TRUNCATE_RATIO" (NumeralSays Text.readNumber?) e ∧
      applyVariables lookup [] ((SettingsLayer.mk a b c d e none).onto s) = (t, none) := by
  have hpure : ∀ {β : Type} (x : Except SettingsIssue β) (f : β → FitSettings),
      (x >>= fun b => pure (f b)) = x.map f := fun x f => by cases x <;> rfl
  refine (applyVariables_cons readVariable_eq_ok_iff
    (fun s o => { s with maxIterations := o.getD s.maxIterations })
    (fun _ => rfl) fun _ _ => hpure ..).trans (exists_congr fun a => and_congr_right fun _ => ?_)
  refine (applyVariables_cons readVariable_eq_ok_iff
    (fun s o => { s with minDeltaChi2 := o.getD s.minDeltaChi2 })
    (fun _ => rfl) fun _ _ => hpure ..).trans (exists_congr fun b => and_congr_right fun _ => ?_)
  refine (applyVariables_cons readVariable_eq_ok_iff
    (fun s o => { s with initialLambda := o.getD s.initialLambda })
    (fun _ => rfl) fun _ _ => hpure ..).trans (exists_congr fun c => and_congr_right fun _ => ?_)
  refine (applyVariables_cons readSwitch_eq_ok_iff
    (fun s o => { s with simdEnabled := o.getD s.simdEnabled })
    (fun _ => rfl) fun _ _ => hpure ..).trans (exists_congr fun d => and_congr_right fun _ => ?_)
  exact applyVariables_cons readVariable_eq_ok_iff
    (fun s o => { s with truncateRatio := o.getD s.truncateRatio })
    (fun _ => rfl) fun _ _ => hpure ..

theorem withEnvironment_eq_ok_iff {lookup : String → Option String} :
    s.withEnvironment lookup = .ok t ↔ ∃ l, EnvironmentSays lookup l ∧
      (l.onto s).Valid ∧ l.onto s = t := by
  have hload : s.withEnvironment lookup = .ok t ↔
      applyVariables lookup environmentVariables s = (t, none) := by
    unfold withEnvironment
    rcases applyVariables lookup environmentVariables s with ⟨s', _ | e⟩ <;> simp
  have hlast : ∀ s' : FitSettings, applyVariables lookup [] s' = (t, none) ↔
      s'.Valid ∧ s' = t := by
    intro s'
    simp [applyVariables, issue?_eq_none_iff, and_comm]
  rw [hload, applyVariables_eq_iff]
  constructor
  · rintro ⟨a, ha, b, hb, c, hc, d, hd, e, he, h⟩
    exact ⟨⟨a, b, c, d, e, none⟩, ⟨ha, hb, hc, hd, he, rfl⟩, (hlast _).mp h⟩
  · rintro ⟨⟨a, b, c, d, e, _⟩, ⟨ha, hb, hc, hd, he, rfl⟩, h⟩
    exact ⟨a, ha, b, hb, c, hc, d, hd, e, he, (hlast _).mpr h⟩

/-! ## All layers -/

theorem load_eq_ok_iff {file lookup : String → Option String} {flags : SettingsFlags} :
    load file lookup flags = .ok s ↔ ∃ f e, ConfigSays file flags.config f ∧
      EnvironmentSays lookup e ∧ (f.onto default).Valid ∧
        (e.onto (f.onto default)).Valid ∧ s.Valid ∧
          flags.layer.onto (e.onto (f.onto default)) = s := by
  unfold load
  constructor
  · intro h
    obtain ⟨s₁, h₁, h⟩ := bind_eq_ok_iff.mp h
    obtain ⟨s₂, h₂, h⟩ := bind_eq_ok_iff.mp h
    obtain ⟨_, hvalid, hpure⟩ := bind_eq_ok_iff.mp h
    cases hpure
    obtain ⟨f, hf, hfile, rfl⟩ := base_eq_ok_iff.mp h₁
    obtain ⟨e, he, henvironment, rfl⟩ := withEnvironment_eq_ok_iff.mp h₂
    exact ⟨f, e, hf, he, hfile, henvironment, validate_ok_iff.mp hvalid, (withFlags_eq ..).symm⟩
  · rintro ⟨f, e, hf, he, hfile, henvironment, hvalid, rfl⟩
    refine bind_eq_ok_iff.mpr ⟨_, base_eq_ok_iff.mpr ⟨f, hf, hfile, rfl⟩, ?_⟩
    refine bind_eq_ok_iff.mpr ⟨_, withEnvironment_eq_ok_iff.mpr ⟨e, he, henvironment, rfl⟩, ?_⟩
    rw [withFlags_eq]
    exact bind_eq_ok_iff.mpr ⟨(), validate_ok_iff.mpr hvalid, rfl⟩

end FitSettings

/-- Each field of the settings comes from the highest layer that gives it; accelerated vectors are
off where the flags switch them off, and only the file has a say in the trace. -/
structure FitSettings.FromLayers (s : FitSettings) (flags : SettingsFlags)
    (environment file : SettingsLayer) : Prop where
  maxIterations : s.maxIterations = (flags.maxIterations.or
    (environment.maxIterations.or file.maxIterations)).getD FitSettings.default.maxIterations
  minDeltaChi2 : s.minDeltaChi2 = (flags.minDeltaChi2.or
    (environment.minDeltaChi2.or file.minDeltaChi2)).getD FitSettings.default.minDeltaChi2
  initialLambda : s.initialLambda = (flags.initialLambda.or
    (environment.initialLambda.or file.initialLambda)).getD FitSettings.default.initialLambda
  simdEnabled : s.simdEnabled = if flags.noSimd then false else
    (environment.simdEnabled.or file.simdEnabled).getD FitSettings.default.simdEnabled
  truncateRatio : s.truncateRatio = (flags.truncateRatio.or
    (environment.truncateRatio.or file.truncateRatio)).getD FitSettings.default.truncateRatio
  collectTrace : s.collectTrace = file.collectTrace.getD FitSettings.default.collectTrace

namespace FitSettings

variable {s t : FitSettings} {flags : SettingsFlags} {environment file : SettingsLayer}

theorem FromLayers.unique (hs : s.FromLayers flags environment file)
    (ht : t.FromLayers flags environment file) : s = t := by
  cases s
  cases t
  rw [Settings.mk.injEq]
  exact ⟨hs.maxIterations.trans ht.maxIterations.symm, hs.minDeltaChi2.trans ht.minDeltaChi2.symm,
    hs.initialLambda.trans ht.initialLambda.symm, hs.simdEnabled.trans ht.simdEnabled.symm,
    hs.truncateRatio.trans ht.truncateRatio.symm, hs.collectTrace.trans ht.collectTrace.symm⟩

theorem fromLayers_onto (hquiet : environment.collectTrace = none) :
    FromLayers (flags.layer.onto (environment.onto (file.onto default))) flags environment file := by
  have hor : ∀ {β : Type} (a b : Option β) (d : β), a.getD (b.getD d) = (a.or b).getD d :=
    fun a _ _ => by cases a <;> rfl
  have hlayers : ∀ {β : Type} (a b c : Option β) (d : β),
      a.getD (b.getD (c.getD d)) = (a.or (b.or c)).getD d := by
    intro β a b c d
    cases a with
    | none => exact hor b c d
    | some v => rfl
  refine ⟨hlayers .., hlayers .., hlayers .., ?simdEnabled, hlayers .., ?collectTrace⟩
  case simdEnabled =>
    show (if flags.noSimd then some false else none).getD
      (environment.simdEnabled.getD (file.simdEnabled.getD _)) = _
    cases flags.noSimd with
    | false => exact hor environment.simdEnabled file.simdEnabled default.simdEnabled
    | true => rfl
  case collectTrace =>
    show environment.collectTrace.getD (file.collectTrace.getD _) = _
    rw [hquiet]
    rfl

end FitSettings

/-! ## The settings of a run -/

/-- Valid settings are not what a new solver is refused for. -/
theorem Solver.new_ne_invalidSettings {u : VectorUnit} {model : Model Float}
    {x y initial : List Float} {settings : FitSettings} (hvalid : settings.Valid)
    (issue : SettingsIssue) :
    Solver.new u model x y initial settings ≠ .error (.invalidSettings issue) := by
  intro h
  unfold Solver.new at h
  rw [FitSettings.validate_ok_iff.mpr hvalid] at h
  have hstart : Solver.start u model x y initial settings = .error (.invalidSettings issue) := h
  rw [Solver.start_eq] at hstart
  split_ifs at hstart <;> cases hstart

namespace Cli

/-- A run has settings where its variable file adds to the environment and all layers load. -/
theorem World.settings_eq_ok_iff {w : World} {flags : SettingsFlags} {s : FitSettings} :
    w.settings flags = .ok s ↔ w.extended.fault? = none ∧
      FitSettings.load w.file? w.extended.lookup? flags = .ok s := by
  unfold World.settings
  rcases w.extended with ⟨lookup, _ | fault⟩
  · exact mapError_eq_ok_iff.trans (and_iff_right rfl).symm
  · constructor
    · intro h
      obtain ⟨_, -, hthrow⟩ := bind_eq_ok_iff.mp h
      cases hthrow
    · rintro ⟨hnone, -⟩
      cases hnone

/-- What the settings of a run with given flags are made of: the layers that the file and the
environment give are read, the settings are valid with each layer added, and every field comes from
its layer. -/
structure World.Layered (w : World) (flags : SettingsFlags) (environment file : SettingsLayer)
    (s : FitSettings) : Prop extends s.FromLayers flags environment file where
  unbroken : w.extended.fault? = none
  file_says : FitSettings.ConfigSays w.file? flags.config file
  environment_says : FitSettings.EnvironmentSays w.extended.lookup? environment
  file_valid : (file.onto FitSettings.default).Valid
  environment_valid : (environment.onto (file.onto FitSettings.default)).Valid
  valid : s.Valid

/-- **The settings of a run.**  A run has settings exactly when the settings file, if the flags name
one, exists and is a record with values of the right types, when every variable that is set holds a
numeral or, for the switch, one of its eight words, and when the settings are valid after the file,
after the environment and after the flags.  Each field then comes from the highest layer that gives
it, and no solver is refused for such settings.  The fields of the file may come in any order.  The
environment is that of the program unless there is a variable file. -/
theorem World.settings_layered (w : World) (flags : SettingsFlags) (s : FitSettings) :
    (w.settings flags = .ok s ↔ ∃ environment file, w.Layered flags environment file s) ∧
    (w.settings flags = .ok s → s.validate = .ok () ∧ ∀ u model x y initial issue,
      Solver.new u model x y initial s ≠ .error (.invalidSettings issue)) ∧
    (w.settings flags = .ok s → ∀ w' : World, w'.extended = w.extended →
      FitSettings.SameConfig flags.config w.file? w'.file? → w'.settings flags = .ok s) ∧
    (w.file? ".env" = none → w.extended = ⟨w.lookup?, none⟩) := by
  have hlayered : ∀ w : World, w.settings flags = .ok s ↔
      ∃ environment file, w.Layered flags environment file s := by
    intro w
    rw [settings_eq_ok_iff, FitSettings.load_eq_ok_iff]
    constructor
    · rintro ⟨hunbroken, file, environment, hfile, henvironment, hvalid, hvalid', hvalid'', rfl⟩
      exact ⟨environment, file, FitSettings.fromLayers_onto henvironment.collectTrace, hunbroken,
        hfile, henvironment, hvalid, hvalid', hvalid''⟩
    · rintro ⟨environment, file, h⟩
      have hsame := (FitSettings.fromLayers_onto h.environment_says.collectTrace).unique
        h.toFromLayers
      exact ⟨h.unbroken, file, environment, h.file_says, h.environment_says, h.file_valid,
        h.environment_valid, h.valid, hsame⟩
  refine ⟨hlayered w, fun h => ?_, fun h w' hextended hconfig => ?_, fun h => ?_⟩
  · obtain ⟨_, _, hlayers⟩ := (hlayered w).mp h
    exact ⟨FitSettings.validate_ok_iff.mpr hlayers.valid,
      fun u model x y initial issue => Solver.new_ne_invalidSettings hlayers.valid issue⟩
  · obtain ⟨environment, file, hlayers⟩ := (hlayered w).mp h
    refine (hlayered w').mpr ⟨environment, file, { hlayers with
      unbroken := hextended ▸ hlayers.unbroken
      file_says := hlayers.file_says.of_sameConfig hconfig
      environment_says := hextended ▸ hlayers.environment_says }⟩
  · unfold World.extended
    rw [h]
    rfl

/-- A file, variables and a flag that each give some fields; a switch that overrules the file, and one
that overrules the defaults; and a switch that is refused. -/
theorem World.settings_layered_overruled :
    let text := "\x7b\"truncate_ratio\": 0.5, \"max_iterations\": 7, \"simd_enabled\": false, " ++
      "\"collect_trace\": true\x7d"
    let world (entries : List (String × String)) : World :=
      { lookup? := fun name => entries.lookup name
        file? := fun path => if path = "settings.json" then some text else none }
    let gives (entries : List (String × String)) (flags : SettingsFlags) (s : FitSettings) : Prop :=
      (world entries).settings flags = .ok s ∧
        ∃ environment file, (world entries).Layered flags environment file s
    let flags := { SettingsFlags.none with config := some "settings.json" }
    gives [("LMFIT_MAX_ITERATIONS", " 9 "), ("LMFIT_MIN_DELTA_CHI2", "\t+2.5E-3")]
        { flags with initialLambda := some 0.125 } ⟨9, 0.0025, 0.125, false, 0.5, true⟩ ∧
      gives [("LMFIT_SIMD", " ON\n")] flags ⟨7, 1e-30, 1e-3, true, 0.5, true⟩ ∧
      gives [("LMFIT_SIMD", "Off")] .none ⟨100, 1e-30, 1e-3, false, 0.0, false⟩ ∧
      ∀ s, (world [("LMFIT_SIMD", "maybe")]).settings flags ≠ .ok s := by
  intro text world gives flags
  have hgives : ∀ entries flags s, (((world entries).settings flags).toOption.any fun s' =>
      decide (s' = s)) = true → gives entries flags s := by
    intro entries flags s h
    obtain ⟨s', hs, heq⟩ := exists_of_any h
    obtain rfl := of_decide_eq_true heq
    obtain ⟨hlayered, -⟩ := World.settings_layered (world entries) flags s'
    exact ⟨hs, hlayered.mp hs⟩
  refine ⟨hgives _ _ _ (by decide +kernel), hgives _ _ _ (by decide +kernel),
    hgives _ _ _ (by decide +kernel), fun s hs => ?_⟩
  obtain ⟨hlayered, -⟩ := World.settings_layered (world [("LMFIT_SIMD", "maybe")]) flags s
  obtain ⟨environment, file, hlayers⟩ := hlayered.mp hs
  obtain ⟨b, -, hmeans⟩ := hlayers.environment_says.simdEnabled.exists_of_set
    (show (world [("LMFIT_SIMD", "maybe")]).extended.lookup? "LMFIT_SIMD" = some "maybe" from rfl)
  have hmaybe : ∀ b, ¬ FitSettings.SwitchSays "maybe" b := by decide
  exact hmaybe b hmeans

end Cli

end CurveFit
