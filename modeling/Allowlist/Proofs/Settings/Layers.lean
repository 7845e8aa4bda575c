import Mathlib.Data.List.Nodup
import Allowlist.Settings.Load

/-!
# Layers of settings

Each field is resolved by itself. What counts for it is its variable, otherwise the value of the file,
otherwise the default, and only that has to be good. Main statement: settings can be loaded exactly if
what counts is good for each field and the file has no other keys; the settings are then what counts.
-/
namespace Allowlist

namespace Yaml.Value

/-- No other key is the same as a string. -/
theorem sameKey_str_iff {v : Value} {t : Text} : v.sameKey (.str t) = true ↔ v = .str t := by
  cases v with
  | str u => simp [sameKey]
  | bool b => simp [sameKey, integer?]
  | int n => simp [sameKey, integer?]
  | float x => cases h : x.toInt? <;> simp [sameKey, integer?, h]
  | _ => simp [sameKey, integer?]

end Yaml.Value

/-- Of things with different names at most one has a given name. -/
theorem find?_name_eq_some_iff {α : Type} {all : List α} {name : α → Text}
    (hn : (all.map name).Nodup) {t : Text} {a : α} :
    all.find? (fun b => name b = t) = some a ↔ a ∈ all ∧ name a = t := by
  constructor
  · intro h
    have ht : name a = t := by simpa using List.find?_some h
    exact ⟨List.mem_of_find?_eq_some h, ht⟩
  · rintro ⟨ha, rfl⟩
    obtain ⟨b, hb⟩ : ∃ b, all.find? (fun b => name b = name a) = some b := by
      rw [← Option.isSome_iff_exists, List.find?_isSome]
      exact ⟨a, ha, by simp⟩
    have hname : name b = name a := by simpa using List.find?_some hb
    rw [hb, List.inj_on_of_nodup_map hn (List.mem_of_find?_eq_some hb) ha hname]

theorem Variant.named?_eq_some_iff {t : Text} {v : Variant} :
    named? t = some v ↔ v ∈ all ∧ v.name = t :=
  find?_name_eq_some_iff (by decide)

theorem Variant.eq_strict {v : Variant} (hv : v ∈ all) (hs : v.isStrict = true) : v = strict := by
  simp only [all, List.mem_cons, List.not_mem_nil, or_false] at hv
  rcases hv with rfl | rfl
  · cases hs
  · rfl

theorem LevelName.named?_eq_some_iff {t : Text} {l : LevelName} : named? t = some l ↔ l.name = t := by
  have hl : l ∈ all := by cases l <;> decide
  rw [named?, find?_name_eq_some_iff (by decide), and_iff_right hl]

theorem LogFormat.named?_eq_some_iff {t : Text} {f : LogFormat} : named? t = some f ↔ f.name = t := by
  have hf : f ∈ all := by cases f <;> decide
  rw [named?, find?_name_eq_some_iff (by decide), and_iff_right hf]

namespace Settings

namespace Field

variable {f : Field} {v : Yaml.Value} {t : Text}

theorem mem_all (f : Field) : f ∈ all := by cases f <;> decide

/-- What holds of all fields holds of these five. -/
theorem forall_iff {P : Field → Prop} : (∀ f, P f) ↔
    P .source ∧ P .destination ∧ P .variant ∧ P .logLevel ∧ P .logFormat := by
  constructor
  · intro h
    exact ⟨h _, h _, h _, h _, h _⟩
  · rintro ⟨hsource, hdestination, hvariant, hlevel, hformat⟩ f
    cases f with
    | source => exact hsource
    | destination => exact hdestination
    | variant => exact hvariant
    | logLevel => exact hlevel
    | logFormat => exact hformat

theorem name_inj {f g : Field} : f.name = g.name ↔ f = g := by
  constructor
  · intro h
    exact List.inj_on_of_nodup_map (by decide : (all.map name).Nodup) f.mem_all g.mem_all h
  · rintro rfl
    rfl

/-- The values that there are for a field, if not any. -/
def choices? : Field → Option (List Text)
  | .source => none
  | .destination => none
  | .variant => some (Variant.all.map (·.name))
  | .logLevel => some (LevelName.all.map (·.name))
  | .logFormat => some (LogFormat.all.map (·.name))

/-- A value as a field sees it: a level may be spelt in any case. -/
def cased : Field → Yaml.Value → Yaml.Value
  | .logLevel, .str t => .str t.toUpper
  | _, v => v

/-- A value is good for a field and sets it to a text: a string sets it to itself, and bytes to the
text that they encode if there are no choices. -/
inductive Takes (f : Field) : Yaml.Value → Text → Prop
  | text {t : Text} (h : ∀ names, f.choices? = some names → t ∈ names) : Takes f (.str t) t
  | bytes {bs : Utf8.Bytes} {cs : List Char} (hf : f.choices? = none)
      (h : Utf8.decode bs = .ok cs) : Takes f (.bytes bs) (.ofChars cs)

theorem takes_iff_of_choices {names : List Text} (hf : f.choices? = some names) :
    f.Takes v t ↔ v = .str t ∧ t ∈ names := by
  constructor
  · rintro (h | ⟨h, -⟩)
    · exact ⟨rfl, h _ hf⟩
    · rw [hf] at h
      cases h
  · rintro ⟨rfl, ht⟩
    refine .text fun names' h => ?_
    obtain rfl := Option.some.inj (hf.symm.trans h)
    exact ht

theorem takes_iff_of_free (hf : f.choices? = none) : f.Takes v t ↔
    v = .str t ∨ ∃ bs cs, v = .bytes bs ∧ Utf8.decode bs = .ok cs ∧ t = .ofChars cs := by
  constructor
  · rintro (h | ⟨-, h⟩)
    · exact .inl rfl
    · exact .inr ⟨_, _, rfl, h, rfl⟩
  · rintro (rfl | ⟨bs, cs, rfl, h, rfl⟩)
    · exact .text (by simp [hf])
    · exact .bytes hf h

end Field

/-- The fields of settings as texts. -/
def text (s : Settings) : Field → Text
  | .source => s.source
  | .destination => s.destination
  | .variant => s.variant.name
  | .logLevel => s.logLevel.name
  | .logFormat => s.logFormat.name

/-- What counts for a field. -/
def chosen (file : Mapping) (env : Environment) (f : Field) : Yaml.Value :=
  f.cased <|
    match fromEnvironment env f.environmentName with
    | some t => .str t
    | none => (file.value? f).getD (.str (default.text f))

/-- The mapping that the settings file gives; without a file it is empty. -/
def mapping (fs : Files) (config : Option Text) (env : Environment) : Except Error Mapping :=
  match fileOf config env with
  | none => .ok []
  | some name => readMapping fs name

/-- Each key is the name of a field. -/
def Named (m : Mapping) : Prop := ∀ p ∈ m, ∃ f : Field, p.1 = .str f.name

section

variable {m file : Mapping} {env : Environment} {f g : Field} {v : Yaml.Value} {s : Settings}

theorem value?_cons (k : Yaml.Value) (v : Yaml.Value) (m : Mapping) (f : Field) :
    Mapping.value? ((k, v) :: m) f = if k = .str f.name then some v else m.value? f := by
  by_cases hk : k = .str f.name
  · have hs : k.sameKey (.str f.name) = true := Yaml.Value.sameKey_str_iff.mpr hk
    rw [Mapping.value?, List.find?_cons, hs, if_pos hk]
    rfl
  · have hs : k.sameKey (.str f.name) = false :=
      Bool.eq_false_iff.mpr fun h => hk (Yaml.Value.sameKey_str_iff.mp h)
    rw [Mapping.value?, List.find?_cons, hs, if_neg hk]
    rfl

theorem value?_put (m : Mapping) (f : Field) (v : Yaml.Value) (g : Field) :
    Mapping.value? (Yaml.Value.put m (.str f.name) v) g = if g = f then some v else m.value? g := by
  induction m with
  | nil => simp [Yaml.Value.put, value?_cons, Field.name_inj, eq_comm]
  | cons p rest ih =>
    obtain ⟨k, u⟩ := p
    rw [Yaml.Value.put]
    simp only [Yaml.Value.sameKey_str_iff]
    by_cases hk : k = .str f.name
    · subst hk
      simp only [↓reduceIte, value?_cons, Yaml.Value.str.injEq, Field.name_inj, @eq_comm _ f g]
      split <;> rfl
    · rw [if_neg hk, value?_cons, ih, value?_cons]
      by_cases hg : g = f
      · subst hg
        simp [hk]
      · simp [hg]

theorem named_put (m : Mapping) (f : Field) (v : Yaml.Value) :
    Named (Yaml.Value.put m (.str f.name) v) ↔ Named m := by
  induction m with
  | nil => simp [Yaml.Value.put, Named]
  | cons p rest ih =>
    obtain ⟨k, u⟩ := p
    rw [Yaml.Value.put]
    split
    · simp [Named]
    · simp only [Named, List.forall_mem_cons] at ih ⊢
      rw [ih]

/-- Puts in the variable of one field. -/
def overlay (env : Environment) (m : Mapping) (f : Field) : Mapping :=
  match fromEnvironment env f.environmentName with
  | some t => Yaml.Value.put m (.str f.name) (.str t)
  | none => m

theorem merge_eq_foldl (file : Mapping) (env : Environment) :
    merge file env = Field.all.foldl (overlay env) file := rfl

theorem value?_overlay (env : Environment) (m : Mapping) (f g : Field) :
    (overlay env m f).value? g = if g = f then
      ((fromEnvironment env g.environmentName).map .str).or (m.value? g) else m.value? g := by
  rw [overlay]
  by_cases hg : g = f
  · subst hg
    cases fromEnvironment env g.environmentName <;> simp [value?_put]
  · cases fromEnvironment env f.environmentName <;> simp [value?_put, hg]

/-- Each variable decides about its own field only, however many are put in. -/
theorem value?_foldl_overlay (env : Environment) (fields : List Field) (m : Mapping) (g : Field) :
    (fields.foldl (overlay env) m).value? g = if g ∈ fields then
      ((fromEnvironment env g.environmentName).map .str).or (m.value? g) else m.value? g := by
  induction fields generalizing m with
  | nil => simp
  | cons f rest ih =>
    rw [List.foldl_cons, ih, value?_overlay]
    by_cases hf : g = f
    · subst hf
      cases fromEnvironment env g.environmentName <;> simp
    · simp [hf]

theorem named_foldl_overlay (env : Environment) (fields : List Field) (m : Mapping) :
    Named (fields.foldl (overlay env) m) ↔ Named m := by
  induction fields generalizing m with
  | nil => rfl
  | cons f rest ih =>
    rw [List.foldl_cons, ih, overlay]
    cases fromEnvironment env f.environmentName with
    | none => rfl
    | some t => exact named_put m f _

theorem chosen_eq_value?_merge (file : Mapping) (env : Environment) (f : Field) :
    chosen file env f =
      f.cased (((merge file env).value? f).getD (.str (default.text f))) := by
  rw [merge_eq_foldl, value?_foldl_overlay, if_pos f.mem_all, chosen]
  cases fromEnvironment env f.environmentName <;> simp

theorem named_merge : Named (merge file env) ↔ Named file := named_foldl_overlay env Field.all file

/-- A field with choices is read if what there is for it is the text of a choice. -/
theorem read_eq_ok_iff {α : Type} {default a : α} (parse : Text → Option α) {d : Text}
    (hd : parse d = some default) : m.read f default parse = .ok a ↔
      ∃ t, (m.value? f).getD (.str d) = .str t ∧ parse t = some a := by
  rw [Mapping.read]
  cases m.value? f with
  | none => simp [hd]
  | some v =>
    cases v with
    | str t => cases hp : parse t <;> simp [hp]
    | _ => simp

theorem readFree_eq_ok_iff {d t : Text} (hf : f.choices? = none) :
    m.readFree f d = .ok t ↔ f.Takes ((m.value? f).getD (.str d)) t := by
  rw [Field.takes_iff_of_free hf, Mapping.readFree]
  split
  · next bs hv =>
    rw [hv]
    cases hd : Utf8.decode bs <;> simp [hd, eq_comm]
  · next hv =>
    rw [read_eq_ok_iff some (rfl : some d = some d)]
    cases hm : m.value? f with
    | none => simp
    | some v =>
      cases v with
      | bytes bs => exact absurd hm (hv bs)
      | _ => simp

/-- Each field that is read takes what counts for it. -/
theorem source_merge_eq_ok_iff {t : Text} :
    (merge file env).source = .ok t ↔ Field.Takes .source (chosen file env .source) t := by
  rw [chosen_eq_value?_merge]
  exact readFree_eq_ok_iff rfl

theorem destination_merge_eq_ok_iff {t : Text} :
    (merge file env).destination = .ok t ↔
      Field.Takes .destination (chosen file env .destination) t := by
  rw [chosen_eq_value?_merge]
  exact readFree_eq_ok_iff rfl

theorem variant_merge_eq_ok_iff {v : Variant} : (merge file env).variant = .ok v ↔
    Field.Takes .variant (chosen file env .variant) v.name ∧ v ∈ Variant.all := by
  have hd : Variant.named? (default.text .variant) = some default.variant := by rfl
  rw [chosen_eq_value?_merge, Field.takes_iff_of_choices rfl, Mapping.variant,
    read_eq_ok_iff Variant.named? hd]
  simp only [Variant.named?_eq_some_iff, Field.cased]
  constructor
  · rintro ⟨t, hv, ha, rfl⟩
    exact ⟨⟨hv, List.mem_map_of_mem ha⟩, ha⟩
  · rintro ⟨⟨hv, -⟩, ha⟩
    exact ⟨v.name, hv, ha, rfl⟩

theorem logFormat_merge_eq_ok_iff {l : LogFormat} : (merge file env).logFormat = .ok l ↔
    Field.Takes .logFormat (chosen file env .logFormat) l.name := by
  have hl : l.name ∈ LogFormat.all.map (·.name) := by cases l <;> decide
  have hd : LogFormat.named? (default.text .logFormat) = some default.logFormat := by rfl
  rw [chosen_eq_value?_merge, Field.takes_iff_of_choices rfl, and_iff_left hl, Mapping.logFormat,
    read_eq_ok_iff LogFormat.named? hd]
  simp only [LogFormat.named?_eq_some_iff, Field.cased, exists_eq_right']

theorem cased_logLevel_eq_str_iff {t : Text} :
    Field.cased .logLevel v = .str t ↔ ∃ u, v = .str u ∧ u.toUpper = t := by
  cases v <;> simp [Field.cased]

theorem logLevel_merge_eq_ok_iff {l : LevelName} : (merge file env).logLevel = .ok l ↔
    Field.Takes .logLevel (chosen file env .logLevel) l.name := by
  have hl : l.name ∈ LevelName.all.map (·.name) := by cases l <;> decide
  have hd : LevelName.named? (default.text .logLevel).toUpper = some default.logLevel := by rfl
  rw [chosen_eq_value?_merge, Field.takes_iff_of_choices rfl, and_iff_left hl,
    cased_logLevel_eq_str_iff, Mapping.logLevel,
    read_eq_ok_iff (fun t => LevelName.named? t.toUpper) hd]
  simp only [LevelName.named?_eq_some_iff, @eq_comm _ l.name]

theorem ofKey?_eq_none_iff {k : Yaml.Value} :
    Problem.ofKey? k = none ↔ ∃ f : Field, k = .str f.name := by
  cases k with
  | str t =>
    simp only [Problem.ofKey?, List.mem_map, ite_eq_left_iff, reduceCtorEq, imp_false, not_not,
      Yaml.Value.str.injEq]
    constructor
    · rintro ⟨f, -, rfl⟩
      exact ⟨f, rfl⟩
    · rintro ⟨f, rfl⟩
      exact ⟨f, f.mem_all, rfl⟩
  | _ => simp [Problem.ofKey?]

/-- The name of a field holds no surrogate, so no key hides the problems of the fields. -/
theorem hasSurrogateKey_of_named (h : Named m) : m.hasSurrogateKey = false := by
  rw [Mapping.hasSurrogateKey, List.any_eq_false]
  intro p hp
  obtain ⟨f, hf⟩ := h p hp
  rw [hf]
  cases f <;> decide

theorem problems_eq_nil_iff : m.problems = [] ↔ Named m ∧
    (∃ t, m.source = .ok t) ∧ (∃ t, m.destination = .ok t) ∧ (∃ v, m.variant = .ok v) ∧
      (∃ l, m.logLevel = .ok l) ∧ ∃ l, m.logFormat = .ok l := by
  have hread {α : Type} (x : Except Problem α) : Mapping.problemOf x = [] ↔ ∃ a, x = .ok a := by
    cases x <;> simp [Mapping.problemOf]
  have hkeys : m.filterMap (Problem.ofKey? ·.1) = [] ↔ Named m := by
    simp only [List.filterMap_eq_nil_iff, ofKey?_eq_none_iff, Named]
  rw [Mapping.problems]
  cases hs : m.hasSurrogateKey with
  | true =>
    have hn : ¬Named m := fun h => by simp [hasSurrogateKey_of_named h] at hs
    simp [hn]
  | false =>
    simp only [Bool.false_eq_true, ↓reduceIte, List.append_eq_nil_iff, hread, hkeys]
    tauto

theorem settings_eq_ok_iff : m.settings = .ok s ↔ Named m ∧
    m.source = .ok s.source ∧ m.destination = .ok s.destination ∧ m.variant = .ok s.variant ∧
      m.logLevel = .ok s.logLevel ∧ m.logFormat = .ok s.logFormat := by
  constructor
  · intro h
    rw [Mapping.settings] at h
    split at h
    · next hsource hdestination hvariant hlevel hformat hp =>
      obtain rfl := Except.ok.inj h
      exact ⟨(problems_eq_nil_iff.mp hp).1, hsource, hdestination, hvariant, hlevel, hformat⟩
    · cases h
  · rintro ⟨hn, hsource, hdestination, hvariant, hlevel, hformat⟩
    have hp : m.problems = [] := problems_eq_nil_iff.mpr
      ⟨hn, ⟨_, hsource⟩, ⟨_, hdestination⟩, ⟨_, hvariant⟩, ⟨_, hlevel⟩, ⟨_, hformat⟩⟩
    rw [Mapping.settings, hsource, hdestination, hvariant, hlevel, hformat, hp]

/-- The settings that a mapping and the environment give. -/
theorem resolve_eq_ok_iff : resolve file env = .ok s ↔ Named file ∧
    (∀ f : Field, f.Takes (chosen file env f) (s.text f)) ∧ s.variant ∈ Variant.all := by
  rw [resolve, settings_eq_ok_iff, named_merge, source_merge_eq_ok_iff,
    destination_merge_eq_ok_iff, variant_merge_eq_ok_iff, logLevel_merge_eq_ok_iff,
    logFormat_merge_eq_ok_iff, Field.forall_iff]
  simp only [text]
  tauto

/-- What is good for each field is so for the fields of some settings. -/
theorem exists_resolve_eq_ok_iff : (∃ s, resolve file env = .ok s) ↔
    Named file ∧ ∀ f : Field, ∃ t, f.Takes (chosen file env f) t := by
  constructor
  · rintro ⟨s, hs⟩
    obtain ⟨hn, ht, -⟩ := resolve_eq_ok_iff.mp hs
    exact ⟨hn, fun f => ⟨s.text f, ht f⟩⟩
  · rintro ⟨hn, h⟩
    obtain ⟨⟨source, hsource⟩, ⟨destination, hdestination⟩, ⟨variant, hvariant⟩, ⟨level, hlevel⟩,
      ⟨format, hformat⟩⟩ := Field.forall_iff.mp h
    -- each choice is the name of something
    obtain ⟨v, hv, rfl⟩ := List.mem_map.mp ((Field.takes_iff_of_choices rfl).mp hvariant).2
    obtain ⟨l, -, rfl⟩ := List.mem_map.mp ((Field.takes_iff_of_choices rfl).mp hlevel).2
    obtain ⟨g, -, rfl⟩ := List.mem_map.mp ((Field.takes_iff_of_choices rfl).mp hformat).2
    have ht : ∀ f : Field, f.Takes (chosen file env f) (text ⟨source, destination, v, l, g⟩ f) :=
      Field.forall_iff.mpr ⟨hsource, hdestination, hvariant, hlevel, hformat⟩
    exact ⟨_, resolve_eq_ok_iff.mpr ⟨hn, ht, hv⟩⟩

end

section

variable {fs : Files} {config : Option Text} {env : Environment} {file : Mapping} {s : Settings}

theorem load_eq_mapping (fs : Files) (config : Option Text) (env : Environment) :
    load fs config env = match mapping fs config env with
      | .error e => .error e
      | .ok m => match resolve m env with
        | .error problems => .error (.invalid problems)
        | .ok s => .ok s := rfl

theorem load_eq_ok_iff : load fs config env = .ok s ↔
    ∃ file, mapping fs config env = .ok file ∧ resolve file env = .ok s := by
  rw [load_eq_mapping]
  cases mapping fs config env with
  | error e => simp
  | ok m => cases hm : resolve m env <;> simp [hm]

theorem readMapping_eq_ok_iff {name : Text} : readMapping fs name = .ok file ↔
    ∃ content, fs.read (Path.ofText name) = .ok content ∧
      (Yaml.Document.read content = .ok .empty ∧ file = [] ∨
        Yaml.Document.read content = .ok (.mapping file)) := by
  rw [readMapping]
  split
  · next hr => simp [hr]
  · next hr => simp [hr]
  · next hr =>
    simp only [hr, Except.ok.injEq, exists_eq_left']
    split <;> next hd => simp [hd, eq_comm]

theorem mapping_of_read {name : Text} {content : Utf8.Bytes} (hn : fileOf config env = some name)
    (hr : fs.read (Path.ofText name) = .ok content)
    (hd : Yaml.Document.read content = .ok (.mapping file)) : mapping fs config env = .ok file := by
  rw [mapping, hn]
  exact readMapping_eq_ok_iff.mpr ⟨content, hr, .inr hd⟩

/-- Only the settings file is read. -/
theorem load_congr {fs' : Files} (h : ∀ name, fileOf config env = some name →
    fs'.read (Path.ofText name) = fs.read (Path.ofText name)) :
    load fs' config env = load fs config env := by
  have hm : mapping fs' config env = mapping fs config env := by
    rw [mapping, mapping]
    cases hn : fileOf config env with
    | none => rfl
    | some name => simp only [readMapping, h name hn]
  rw [load_eq_mapping, load_eq_mapping, hm]

theorem exists_read_of_load {name : Text} (h : load fs config env = .ok s)
    (hn : fileOf config env = some name) :
    ∃ content, fs.read (Path.ofText name) = .ok content := by
  obtain ⟨file, hm, -⟩ := load_eq_ok_iff.mp h
  rw [mapping, hn] at hm
  obtain ⟨content, hr, -⟩ := readMapping_eq_ok_iff.mp hm
  exact ⟨content, hr⟩

theorem variant_mem_of_load (h : load fs config env = .ok s) : s.variant ∈ Variant.all := by
  obtain ⟨file, -, hr⟩ := load_eq_ok_iff.mp h
  exact (resolve_eq_ok_iff.mp hr).2.2

end

end Settings

end Allowlist
