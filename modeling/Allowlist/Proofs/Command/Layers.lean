import Allowlist.Proofs.Command.Check
import Allowlist.Proofs.Settings.Layers

/-!
# Layers of a run

The command line is the layer above the settings. A run goes by the value that it gives for a field,
otherwise by that of the settings, and the other fields have no part in it. This takes an invariant of
reading arguments: a variant that is asked for is one of those that have a name.
-/
namespace Allowlist.Command

open Settings (Field)

/-- A variant that is asked for has a name. -/
def Arguments.Known (a : Arguments) : Prop := ∀ v, a.variant = some v → v ∈ Variant.all

theorem Arguments.Known.put {a : Arguments} (h : a.Known) (o : Opt) (value : Text) :
    (a.put o value).Known := by
  cases o with
  | variant =>
    intro v hv
    exact (Variant.named?_eq_some_iff.mp hv).1
  | _ => exact h

theorem Arguments.Known.strict {a : Arguments} : { a with variant := some .strict }.Known := by
  intro v hv
  obtain rfl := Option.some.inj hv
  simp [Variant.all]

section

variable {r r' : Reading} {ps ps' : List Piece}

theorem known_takePositionals (h : r.arguments.Known) (ps : List Piece) :
    (takePositionals r ps).1.arguments.Known := by
  rw [takePositionals]
  split
  · exact h
  · exact h

theorem known_assign (h : r.arguments.Known) {o : Opt} {value : Text}
    (he : assign r o value = .ok r') : r'.arguments.Known := by
  obtain ⟨-, -, he⟩ := bind_eq_ok.mp he
  split at he
  · cases he
  · obtain rfl := Except.ok.inj he
    exact h.put o value

theorem known_apply (h : r.arguments.Known) {o : Opt} (he : apply r o = .ok r') :
    r'.arguments.Known := by
  cases o with
  | help => cases he
  | strict =>
    rw [apply] at he
    split at he
    · cases he
    · obtain rfl := Except.ok.inj he
      exact Arguments.Known.strict
  | _ =>
    obtain rfl := Except.ok.inj he
    exact h

theorem known_takeOption (h : r.arguments.Known) {o : Opt} {attached : Attached}
    (he : takeOption r o attached ps = .ok (r', ps')) : r'.arguments.Known := by
  cases attached with
  | letters t => cases he
  | value t =>
    simp only [takeOption] at he
    split at he
    · obtain ⟨q, hq, he⟩ := bind_eq_ok.mp he
      obtain ⟨rfl, -⟩ := Prod.mk.inj (Except.ok.inj he)
      exact known_assign h (mapError_eq_ok.mp hq)
    · cases he
  | nothing =>
    simp only [takeOption] at he
    split at he
    · split at he
      · obtain ⟨q, hq, he⟩ := bind_eq_ok.mp he
        obtain ⟨rfl, -⟩ := Prod.mk.inj (Except.ok.inj he)
        exact known_assign h (mapError_eq_ok.mp hq)
      · cases he
    · obtain ⟨q, hq, he⟩ := bind_eq_ok.mp he
      obtain ⟨rfl, -⟩ := Prod.mk.inj (Except.ok.inj he)
      exact known_apply h hq

/-- Every step of reading keeps the variant known, so the whole of it does. -/
theorem known_readFrom {fuel : Nat} (h : r.arguments.Known) (he : readFrom fuel r ps = .ok r') :
    r'.arguments.Known := by
  induction fuel generalizing r ps with
  | zero =>
    obtain rfl := Except.ok.inj he
    exact h
  | succ fuel ih =>
    have hp : (takePositionals r ps).1.arguments.Known := known_takePositionals h ps
    rw [readFrom.eq_def] at he
    simp only at he
    split at he
    · split at he
      · obtain ⟨⟨q, rest⟩, hq, he⟩ := bind_eq_ok.mp he
        exact ih (known_takeOption h hq) he
      · refine ih ?_ he
        exact h
      · refine ih ?_ he
        exact hp
    · split at he
      · obtain rfl := Except.ok.inj he
        exact hp
      · cases he

theorem known_readArguments {ts : List Text} {a : Arguments} (h : readArguments ts = .ok a) :
    a.Known := by
  rw [readArguments] at h
  split at h
  · cases h
  · split at h
    · cases h
    · next hr =>
      obtain rfl := Except.ok.inj h
      have hstart : Reading.start.arguments.Known := fun v hv => by cases hv
      exact known_readFrom hstart hr

end

/-- What the arguments give for a field. A path that is empty is given. -/
def Arguments.text? (a : Arguments) : Field → Option Text
  | .source => a.source
  | .destination => a.destination
  | .variant => a.variant.map (·.name)
  | .logLevel => a.logLevel.map (·.name)
  | .logFormat => a.logFormat.map (·.name)

/-- A plan goes by a text for each field. -/
structure Plan.GoesBy (p : Plan) (terminal : Bool) (value : Field → Text) : Prop where
  source : p.source = value .source
  destination : p.destination = value .destination
  variant : Variant.named? (value .variant) = some p.variant
  level : (LevelName.named? (value .logLevel)).map (·.level) = some p.level
  layout : (LogFormat.named? (value .logFormat)).map (layoutOf · terminal) = some p.layout

theorem Plan.variant_mem_of {a : Arguments} {s : Settings} (ha : a.Known)
    (hs : s.variant ∈ Variant.all) (terminal : Bool) : (Plan.of a s terminal).variant ∈ Variant.all := by
  rw [Plan.of]
  cases hv : a.variant with
  | none => exact hs
  | some v => exact ha v hv

theorem Plan.goesBy_of {a : Arguments} {s : Settings} (ha : a.Known)
    (hs : s.variant ∈ Variant.all) (terminal : Bool) :
    (Plan.of a s terminal).GoesBy terminal fun f => (a.text? f).getD (s.text f) where
  source := rfl
  destination := rfl
  variant := by
    rw [Variant.named?_eq_some_iff]
    refine ⟨variant_mem_of ha hs terminal, ?_⟩
    cases hv : a.variant <;> simp [Plan.of, Arguments.text?, Settings.text, hv]
  level := by
    have hl : LevelName.named? ((a.text? .logLevel).getD (s.text .logLevel)) =
        some (a.logLevel.getD s.logLevel) := by
      rw [LevelName.named?_eq_some_iff]
      cases hl : a.logLevel <;> simp [Arguments.text?, Settings.text, hl]
    rw [hl]
    rfl
  layout := by
    have hf : LogFormat.named? ((a.text? .logFormat).getD (s.text .logFormat)) =
        some (a.logFormat.getD s.logFormat) := by
      rw [LogFormat.named?_eq_some_iff]
      cases hf : a.logFormat <;> simp [Arguments.text?, Settings.text, hf]
    rw [hf]
    rfl

section

variable {fs : Files} {config : Option Text} {env : Settings.Environment}
  {file : Settings.Mapping}

/-- For each field by itself the command line counts before the variable, the variable before the
file, and the file before the default; settings can be loaded exactly if what counts below the command
line is good for each field and the file has no other keys. -/
theorem settings_layers (hfile : Settings.mapping fs config env = .ok file) :
    ((∃ s, Settings.load fs config env = .ok s) ↔
      Settings.Named file ∧ ∀ f : Field, ∃ t, f.Takes (Settings.chosen file env f) t) ∧
    ∀ s, Settings.load fs config env = .ok s →
      (∀ f : Field, f.Takes (Settings.chosen file env f) (s.text f)) ∧
      ∀ c a w, readArguments c.arguments = .ok a → w.files = fs → a.config = config →
        c.environment = env → ∃ p, run c w = carryOut c p w ∧ p.check = a.check ∧
          p.GoesBy c.terminal fun f => (a.text? f).getD (s.text f) := by
  have hload {s : Settings} : Settings.load fs config env = .ok s ↔
      Settings.resolve file env = .ok s := by
    rw [Settings.load_eq_ok_iff, hfile]
    simp
  constructor
  · simp only [hload]
    exact Settings.exists_resolve_eq_ok_iff
  · intro s hs
    have htakes : ∀ f : Field, f.Takes (Settings.chosen file env f) (s.text f) :=
      (Settings.resolve_eq_ok_iff.mp (hload.mp hs)).2.1
    refine ⟨htakes, ?_⟩
    rintro c a w ha rfl rfl rfl
    exact ⟨Plan.of a s c.terminal, run_of_settings ha hs, rfl,
      Plan.goesBy_of (known_readArguments ha) (Settings.variant_mem_of_load hs) c.terminal⟩

end

/-- A settings file with two values that are not good. -/
def layeredContent : Utf8.Bytes :=
  Utf8.encode "variant: 7\nlog_level: debug\nsource: ~\n".toList

def layeredWorld : World := ⟨⟨[], [(["c"], .file layeredContent)]⟩, Log.State.start⟩

def layeredMapping : Settings.Mapping :=
  [(.str "variant", .int 7), (.str "log_level", .str "debug"), (.str "source", .null)]

/-- The environment hides the values that are not good, and an empty source is given. -/
def layeredCall : Call :=
  { plainCall with
    arguments := ["", "--config", "c", "--log-format", "human"]
    environment := [("POLICYGEN_SOURCE", "s"), ("POLICYGEN_VARIANT", "strict")] }

def layeredArguments : Arguments :=
  { Arguments.none with source := some [], config := some "c", logFormat := some .human }

def layeredSettings : Settings := ⟨"s", Settings.default.destination, .strict, .debug, .auto⟩

theorem settings_layers_hidden :
    Settings.mapping layeredWorld.files (some "c") layeredCall.environment = .ok layeredMapping ∧
    Settings.load layeredWorld.files (some "c") layeredCall.environment = .ok layeredSettings ∧
    readArguments layeredCall.arguments = .ok layeredArguments ∧
    ∃ p, run layeredCall layeredWorld = carryOut layeredCall p layeredWorld ∧
      p.source = [] ∧ p.destination = Settings.default.destination ∧ p.variant.name = "strict" ∧
        p.level = Log.Level.debug ∧ p.layout = .human := by
  have hd : Yaml.Document.read layeredContent = .ok (.mapping layeredMapping) := by decide +kernel
  have hfile : Settings.mapping layeredWorld.files (some "c") layeredCall.environment =
      .ok layeredMapping := Settings.mapping_of_read (by rfl) (by rfl) hd
  have hs : Settings.load layeredWorld.files (some "c") layeredCall.environment =
      .ok layeredSettings := Settings.load_eq_ok_iff.mpr ⟨_, hfile, by rfl⟩
  have ha : readArguments layeredCall.arguments = .ok layeredArguments := by rfl
  obtain ⟨-, hrun⟩ := (settings_layers hfile).2 layeredSettings hs
  obtain ⟨p, hp, -, hgoes⟩ := hrun layeredCall layeredArguments layeredWorld ha rfl rfl rfl
  have hvariant : p.variant.name = "strict" := (Variant.named?_eq_some_iff.mp hgoes.variant).2
  have hlevel : p.level = Log.Level.debug := (Option.some.inj hgoes.level).symm
  have hlayout : p.layout = .human := (Option.some.inj hgoes.layout).symm
  exact ⟨hfile, hs, ha, p, hp, hgoes.source, hgoes.destination, hvariant, hlevel, hlayout⟩

/-- A settings file whose source is given as bytes. -/
def bytesContent : Utf8.Bytes := Utf8.encode "source: !!binary cy5qc29u\n".toList

def bytesMapping : Settings.Mapping := [(.str "source", .bytes [115, 46, 106, 115, 111, 110])]

/-- What counts need not be a string: bytes set a path to the text that they encode. -/
theorem load_bytesContent : ¬∀ fs config env file s, Settings.mapping fs config env = .ok file →
    Settings.load fs config env = .ok s →
      ∀ f : Field, Settings.chosen file env f = .str (s.text f) := by
  intro h
  have hd : Yaml.Document.read bytesContent = .ok (.mapping bytesMapping) := by decide +kernel
  have hfile : Settings.mapping ⟨[], [(["c"], .file bytesContent)]⟩ (some "c") [] =
      .ok bytesMapping := Settings.mapping_of_read (by rfl) (by rfl) hd
  have hs : Settings.load ⟨[], [(["c"], .file bytesContent)]⟩ (some "c") [] =
      .ok { Settings.default with source := "s.json" } :=
    Settings.load_eq_ok_iff.mpr ⟨_, hfile, by rfl⟩
  have hstr := h _ _ _ _ _ hfile hs .source
  cases hstr

end Allowlist.Command
