import Allowlist.Proofs.Files.Path
import Allowlist.Proofs.Reports
import Allowlist.Proofs.Settings.Layers
import Allowlist.Proofs.Text.Uppercase
import Allowlist.Proofs.Yaml.Keys

/-!
# Problems of settings

Settings that are not valid are reported with all their problems: one for each field that does not take
what counts for it, in the order of the fields, and then one for each key that is not a field, in the
order of the file. What a variable hides is not looked at. A key that holds a surrogate is the exception:
it alone is reported.
-/
namespace Allowlist.Settings

namespace Field

/-- There is no text that the value sets the field to. -/
def Refuses (f : Field) (v : Yaml.Value) : Prop := ∀ t, ¬f.Takes v t

/-- What is said about a value that the field refuses. It is no Unicode string if it is a text with a
surrogate, or if it is bytes and the field would take bytes. -/
def complaint (f : Field) : Yaml.Value → Problem
  | .str t => if t.hasSurrogate then .notUnicode f else .invalid f
  | .bytes _ => if f.choices?.isNone then .notUnicode f else .invalid f
  | _ => .invalid f

variable {f : Field} {v : Yaml.Value}

theorem refuses_iff_of_choices {names : List Text} (hf : f.choices? = some names) :
    f.Refuses v ↔ ∀ t, v = .str t → t ∉ names := by
  simp only [Refuses, takes_iff_of_choices hf, not_and]

theorem complaint_cased (f : Field) (v : Yaml.Value) : f.complaint (f.cased v) = f.complaint v := by
  cases f with
  | logLevel =>
    cases v with
    | str t => simp only [cased, complaint, Text.hasSurrogate_toUpper]
    | _ => rfl
  | _ => rfl

end Field

/-- What is said about a key that is not a field. -/
def Problem.ofKey : Yaml.Value → Problem
  | .str t => .extra t
  | key => .keyNotString key.display

/-- What a problem is about: a field or a key. -/
def Problem.subject : Problem → Text
  | .invalid f => f.name
  | .notUnicode f => f.name
  | .extra key => key
  | .keyNotString key => key
  | .keyNotUnicode => []

/-- A message begins with what it is about. -/
theorem Problem.subject_prefix (p : Problem) : p.subject ++ (": " : Text) <+: p.message := by
  have hinput : (": Input should be " : Text) = (": " : Text) ++ ("Input should be " : Text) := by rfl
  have hextra : (": Extra inputs are not permitted" : Text) =
      (": " : Text) ++ ("Extra inputs are not permitted" : Text) := by rfl
  have hkeys : (": Keys should be strings" : Text) =
      (": " : Text) ++ ("Keys should be strings" : Text) := by rfl
  cases p with
  | invalid f => simp [subject, message, hinput]
  | notUnicode f => simp [subject, message]
  | extra key => simp [subject, message, hextra]
  | keyNotString key => simp [subject, message, hkeys]
  | keyNotUnicode => simp [subject, message]

theorem Field.subject_complaint (f : Field) (v : Yaml.Value) : (f.complaint v).subject = f.name := by
  cases v with
  | str t => cases h : t.hasSurrogate <;> simp [complaint, h, Problem.subject]
  | bytes bs => cases h : f.choices? <;> simp [complaint, h, Problem.subject]
  | _ => rfl

theorem Problem.subject_ofKey (k : Yaml.Value) : (ofKey k).subject = k.display := by
  cases k <;> rfl

namespace Mapping

def problemIn? {α : Type} : Except Problem α → Option Problem
  | .ok _ => none
  | .error p => some p

/-- The problem that there is with a field. -/
def problem? (m : Mapping) : Field → Option Problem
  | .source => problemIn? m.source
  | .destination => problemIn? m.destination
  | .variant => problemIn? m.variant
  | .logLevel => problemIn? m.logLevel
  | .logFormat => problemIn? m.logFormat

end Mapping

section

variable {m m' file : Mapping} {env : Environment} {f : Field} {p : Problem} {ps : List Problem}

theorem problemIn?_eq_some_iff {α : Type} {x : Except Problem α} :
    Mapping.problemIn? x = some p ↔ x = .error p := by
  cases x <;> simp [Mapping.problemIn?]

theorem problemOf_eq_toList {α : Type} (x : Except Problem α) :
    Mapping.problemOf x = (Mapping.problemIn? x).toList := by
  cases x <;> rfl

/-! ## Fields -/

/-- A field with choices is not read if what there is for it is not the text of a choice. -/
theorem read_eq_error_iff {α : Type} {default : α} (parse : Text → Option α) {d : Text}
    {names : List Text} (hf : f.choices? = some names) (hd : parse d = some default) :
    m.read f default parse = .error p ↔
      (∀ t, (m.value? f).getD (.str d) = .str t → parse t = none) ∧
        p = f.complaint ((m.value? f).getD (.str d)) := by
  rw [Mapping.read]
  cases m.value? f with
  | none => simp [hd]
  | some v =>
    cases v with
    | str t => cases hp : parse t <;> simp [hp, Field.complaint, eq_comm (a := p)]
    | bytes bs => simp [Field.complaint, hf, eq_comm (a := p)]
    | _ => simp [Field.complaint, eq_comm (a := p)]

theorem readFree_eq_error_iff {d : Text} (hf : f.choices? = none) :
    m.readFree f d = .error p ↔ f.Refuses ((m.value? f).getD (.str d)) ∧
      p = f.complaint ((m.value? f).getD (.str d)) := by
  simp only [Field.Refuses, Field.takes_iff_of_free hf, Mapping.readFree, Mapping.read]
  cases m.value? f with
  | none => simp
  | some v =>
    cases v with
    | bytes bs => cases hd : Utf8.decode bs <;> simp [hd, hf, Field.complaint, eq_comm (a := p)]
    | _ => simp [Field.complaint, eq_comm (a := p)]

/-- What a field with choices refuses, said of the value that counts for it. -/
theorem read_merge_eq_error_iff {α : Type} {a : α} (parse : Text → Option α) {names : List Text}
    (hf : f.choices? = some names) (hd : parse (default.text f) = some a)
    (hparse : ∀ v, (∀ t, v = .str t → parse t = none) ↔ ∀ t, f.cased v = .str t → t ∉ names) :
    (merge file env).read f a parse = .error p ↔
      f.Refuses (chosen file env f) ∧ p = f.complaint (chosen file env f) := by
  rw [read_eq_error_iff parse hf hd, hparse, chosen_eq_value?_merge, Field.complaint_cased,
    Field.refuses_iff_of_choices hf]

theorem find?_name_eq_none_iff {α : Type} {all : List α} {name : α → Text} {t : Text} :
    all.find? (fun b => name b = t) = none ↔ t ∉ all.map name := by
  simp

theorem problem?_merge_eq_some_iff : (merge file env).problem? f = some p ↔
    f.Refuses (chosen file env f) ∧ p = f.complaint (chosen file env f) := by
  cases f with
  | source | destination =>
    rw [Mapping.problem?, problemIn?_eq_some_iff, chosen_eq_value?_merge]
    exact readFree_eq_error_iff rfl
  | variant | logFormat =>
    rw [Mapping.problem?, problemIn?_eq_some_iff]
    refine read_merge_eq_error_iff _ rfl (by rfl) fun v => ?_
    simp only [Variant.named?, LogFormat.named?, find?_name_eq_none_iff]
    rfl
  | logLevel =>
    rw [Mapping.problem?, problemIn?_eq_some_iff]
    refine read_merge_eq_error_iff _ rfl (by rfl) fun v => ?_
    simp only [LevelName.named?, find?_name_eq_none_iff, cased_logLevel_eq_str_iff]
    grind

/-! ## Keys -/

theorem ofKey?_eq_some_iff {k : Yaml.Value} :
    Problem.ofKey? k = some p ↔ (∀ f : Field, k ≠ .str f.name) ∧ p = .ofKey k := by
  have hnone : (∀ f : Field, k ≠ .str f.name) ↔ Problem.ofKey? k ≠ none := by
    rw [Ne, ofKey?_eq_none_iff, not_exists]
  rw [hnone]
  cases k with
  | str t =>
    rw [Problem.ofKey?]
    by_cases ht : t ∈ Field.all.map (·.name)
    · simp [ht]
    · simp [ht, Problem.ofKey, eq_comm]
  | _ => simp [Problem.ofKey?, Problem.ofKey, eq_comm]

/-- The keys of `m` come first in `m'`, in their order, and nothing but fields behind them. -/
def Extends (m m' : Mapping) : Prop :=
  ∃ fields : List Field, m'.map Prod.fst = m.map Prod.fst ++ fields.map fun f => .str f.name

theorem Extends.refl (m : Mapping) : Extends m m := ⟨[], by simp⟩

theorem Extends.trans {m₁ m₂ m₃ : Mapping} (h₁₂ : Extends m₁ m₂) (h₂₃ : Extends m₂ m₃) :
    Extends m₁ m₃ := by
  obtain ⟨fs, hfs⟩ := h₁₂
  obtain ⟨gs, hgs⟩ := h₂₃
  exact ⟨fs ++ gs, by rw [hgs, hfs, List.map_append, List.append_assoc]⟩

theorem extends_put (m : Mapping) (f : Field) (v : Yaml.Value) :
    Extends m (Yaml.Value.put m (.str f.name) v) := by
  rcases Yaml.Value.keys_put m (.str f.name) v with h | ⟨h, -⟩
  · exact ⟨[], by simp [h]⟩
  · exact ⟨[f], by simp [h]⟩

theorem extends_overlay (env : Environment) (m : Mapping) (f : Field) :
    Extends m (overlay env m f) := by
  rw [overlay]
  cases fromEnvironment env f.environmentName with
  | none => exact .refl m
  | some t => exact extends_put m f (.str t)

theorem extends_merge (file : Mapping) (env : Environment) : Extends file (merge file env) := by
  rw [merge_eq_foldl]
  generalize Field.all = fields
  induction fields generalizing file with
  | nil => exact .refl file
  | cons f rest ih => exact (extends_overlay env file f).trans (ih (overlay env file f))

/-- Fields among the keys are no problem of a key. -/
theorem Extends.filterMap_ofKey? (h : Extends m m') :
    m'.filterMap (Problem.ofKey? ·.1) = m.filterMap (Problem.ofKey? ·.1) := by
  obtain ⟨fields, hkeys⟩ := h
  have hmap (l : Mapping) :
      l.filterMap (Problem.ofKey? ·.1) = (l.map Prod.fst).filterMap Problem.ofKey? := by
    rw [List.filterMap_map]
    rfl
  have hfields : (fields.map fun f => Yaml.Value.str f.name).filterMap Problem.ofKey? = [] := by
    rw [List.filterMap_eq_nil_iff]
    intro k hk
    obtain ⟨f, -, rfl⟩ := List.mem_map.mp hk
    exact ofKey?_eq_none_iff.mpr ⟨f, rfl⟩
  rw [hmap, hmap, hkeys, List.filterMap_append, hfields, List.append_nil]

theorem hasSurrogateKey_iff : m.hasSurrogateKey = true ↔
    ∃ t, .str t ∈ m.map Prod.fst ∧ t.hasSurrogate = true := by
  rw [Mapping.hasSurrogateKey, List.any_eq_true]
  constructor
  · rintro ⟨⟨k, v⟩, hm, hk⟩
    cases k with
    | str t => exact ⟨t, List.mem_map_of_mem hm, hk⟩
    | _ => cases hk
  · rintro ⟨t, ht, hs⟩
    obtain ⟨q, hq, he⟩ := List.mem_map.mp ht
    exact ⟨q, hq, by rw [he]; exact hs⟩

/-- The name of a field holds no surrogate. -/
theorem Extends.hasSurrogateKey (h : Extends m m') : m'.hasSurrogateKey = m.hasSurrogateKey := by
  obtain ⟨fields, hkeys⟩ := h
  have hname (f : Field) : f.name.hasSurrogate = false := by cases f <;> decide
  rw [Bool.eq_iff_iff, hasSurrogateKey_iff, hasSurrogateKey_iff, hkeys]
  apply exists_congr
  intro t
  rw [List.mem_append]
  constructor
  · rintro ⟨ht | ht, hs⟩
    · exact ⟨ht, hs⟩
    · obtain ⟨f, -, hf⟩ := List.mem_map.mp ht
      obtain rfl := Yaml.Value.str.inj hf
      rw [hname f] at hs
      cases hs
  · rintro ⟨ht, hs⟩
    exact ⟨.inl ht, hs⟩

/-! ## All problems -/

theorem problems_of_surrogate (h : m.hasSurrogateKey = true) : m.problems = [.keyNotUnicode] := by
  rw [Mapping.problems, if_pos h]

theorem problems_of_no_surrogate (h : m.hasSurrogateKey = false) :
    m.problems = Field.all.filterMap m.problem? ++ m.filterMap (Problem.ofKey? ·.1) := by
  have hfields : Field.all.filterMap m.problem? = Mapping.problemOf m.source ++
      (Mapping.problemOf m.destination ++ (Mapping.problemOf m.variant ++
        (Mapping.problemOf m.logLevel ++ Mapping.problemOf m.logFormat))) := by
    rw [List.filterMap_eq_flatMap_toList]
    simp only [Field.all, List.flatMap_cons, List.flatMap_nil, List.append_nil, Mapping.problem?,
      problemOf_eq_toList]
  rw [hfields, Mapping.problems, h]
  simp only [Bool.false_eq_true, ↓reduceIte, List.append_assoc]

theorem settings_of_problems_eq_nil (h : m.problems = []) : ∃ s, m.settings = .ok s := by
  obtain ⟨hn, ⟨source, hsource⟩, ⟨destination, hdestination⟩, ⟨variant, hvariant⟩, ⟨level, hlevel⟩,
    ⟨format, hformat⟩⟩ := problems_eq_nil_iff.mp h
  exact ⟨⟨source, destination, variant, level, format⟩,
    settings_eq_ok_iff.mpr ⟨hn, hsource, hdestination, hvariant, hlevel, hformat⟩⟩

theorem settings_of_problems_ne_nil (h : m.problems ≠ []) : m.settings = .error m.problems := by
  rw [Mapping.settings]
  split
  · next hp => exact absurd hp h
  · rfl

theorem settings_eq_error_iff : m.settings = .error ps ↔ m.problems = ps ∧ ps ≠ [] := by
  by_cases hp : m.problems = []
  · obtain ⟨s, hs⟩ := settings_of_problems_eq_nil hp
    rw [hs, hp]
    constructor
    · intro h
      cases h
    · rintro ⟨rfl, hne⟩
      exact absurd rfl hne
  · rw [settings_of_problems_ne_nil hp, Except.error.injEq]
    constructor
    · rintro rfl
      exact ⟨rfl, hp⟩
    · rintro ⟨h, -⟩
      exact h

/-- The problems of the fields in the order of the fields, and then those of the other keys in the
order of the file, one for each field and key that has one. -/
def Listed (file : Mapping) (env : Environment) (ps : List Problem) : Prop :=
  ∃ ofFields ofKeys, ps = ofFields ++ ofKeys ∧
    Reports Nat.lt (fun i p => ∃ f, Field.all[i]? = some f ∧ f.Refuses (chosen file env f) ∧
      p = f.complaint (chosen file env f)) ofFields ∧
    Reports Nat.lt (fun i p => ∃ k v, file[i]? = some (k, v) ∧ (∀ f : Field, k ≠ .str f.name) ∧
      p = .ofKey k) ofKeys

theorem listed_problems_merge (h : file.hasSurrogateKey = false) :
    Listed file env (merge file env).problems := by
  have hmerge : Extends file (merge file env) := extends_merge file env
  have hs : (merge file env).hasSurrogateKey = false := hmerge.hasSurrogateKey.trans h
  rw [problems_of_no_surrogate hs, hmerge.filterMap_ofKey?]
  refine ⟨_, _, rfl, ?_, ?_⟩
  · apply (reports_filterMap Field.all (merge file env).problem?).congr
    intro i p
    simp only [problem?_merge_eq_some_iff]
  · apply (reports_filterMap file (Problem.ofKey? ·.1)).congr
    intro i p
    simp only [ofKey?_eq_some_iff, Prod.exists]

/-- Settings depend on what there is for each field, and on the other keys. -/
theorem settings_congr (hvalue : ∀ f, m'.value? f = m.value? f)
    (hkeys : m'.filterMap (Problem.ofKey? ·.1) = m.filterMap (Problem.ofKey? ·.1))
    (hsurrogate : m'.hasSurrogateKey = m.hasSurrogateKey) : m'.settings = m.settings := by
  have hread {α : Type} (f : Field) (a : α) (parse : Text → Option α) :
      m'.read f a parse = m.read f a parse := by
    rw [Mapping.read, Mapping.read, hvalue]
  have hfree (f : Field) (t : Text) : m'.readFree f t = m.readFree f t := by
    rw [Mapping.readFree, Mapping.readFree, hvalue, hread]
  simp only [Mapping.settings, Mapping.problems, Mapping.source, Mapping.destination, Mapping.variant,
    Mapping.logLevel, Mapping.logFormat, hread, hfree, hkeys, hsurrogate]

/-- What the file has for a field makes no difference if the variable of the field is there. -/
theorem resolve_put {t : Text} (ht : fromEnvironment env f.environmentName = some t) (v : Yaml.Value) :
    resolve (Yaml.Value.put file (.str f.name) v) env = resolve file env := by
  have hmerge : Extends file (merge file env) := extends_merge file env
  have hput : Extends file (merge (Yaml.Value.put file (.str f.name) v) env) :=
    (extends_put file f v).trans (extends_merge _ env)
  apply settings_congr
  · intro g
    rw [merge_eq_foldl, merge_eq_foldl, value?_foldl_overlay, value?_foldl_overlay, value?_put]
    by_cases hg : g = f
    · subst hg
      simp [ht, g.mem_all]
    · simp [hg]
  · rw [hput.filterMap_ofKey?, hmerge.filterMap_ofKey?]
  · rw [hput.hasSurrogateKey, hmerge.hasSurrogateKey]

end

section

variable {fs : Files} {config : Option Text} {env : Environment} {file : Mapping} {e : Error}

theorem distinct_of_mapping (h : mapping fs config env = .ok file) :
    Yaml.Value.Distinct (file.map Prod.fst) := by
  rw [mapping] at h
  split at h
  · obtain rfl := Except.ok.inj h
    exact List.Pairwise.nil
  · obtain ⟨content, -, ⟨-, rfl⟩ | hd⟩ := readMapping_eq_ok_iff.mp h
    · exact List.Pairwise.nil
    · exact Yaml.Document.distinct_of_read hd

/-- A mapping that is read can only fail for its problems. -/
theorem eq_invalid_of_load (hfile : mapping fs config env = .ok file)
    (h : load fs config env = .error e) :
    e = .invalid (merge file env).problems ∧ (merge file env).problems ≠ [] := by
  rw [load_eq_mapping, hfile] at h
  cases hr : resolve file env with
  | ok s =>
    simp only [hr] at h
    cases h
  | error ps =>
    simp only [hr] at h
    obtain ⟨hps, hne⟩ := settings_eq_error_iff.mp hr
    rw [hps]
    exact ⟨(Except.error.inj h).symm, hne⟩

/-- The report of settings that are not valid has all their problems and nothing else: one problem
for each field that refuses what counts for it, in the order of the fields, and then one for each key
that is not a field, in the order of the file. No key is there twice, and what a variable hides is not
reported. If a key holds a surrogate, that is the only problem. -/
theorem load_problems (hfile : mapping fs config env = .ok file)
    (h : load fs config env = .error e) :
    ∃ ps, e = .invalid ps ∧
      e.message = "invalid settings: " ++ Text.join "; " (ps.map (·.message)) ∧ ps ≠ [] ∧
      ((∃ t, .str t ∈ file.map Prod.fst ∧ t.hasSurrogate = true) → ps = [.keyNotUnicode]) ∧
      ((∀ t, .str t ∈ file.map Prod.fst → t.hasSurrogate = false) → Listed file env ps) ∧
      Yaml.Value.Distinct (file.map Prod.fst) ∧
      ∀ (f : Field) t v, fromEnvironment env f.environmentName = some t →
        resolve (Yaml.Value.put file (.str f.name) v) env = .error ps := by
  obtain ⟨rfl, hne⟩ := eq_invalid_of_load hfile h
  refine ⟨_, rfl, rfl, hne, ?_, ?_, distinct_of_mapping hfile, ?_⟩
  · intro hs
    apply problems_of_surrogate
    rw [(extends_merge file env).hasSurrogateKey]
    exact hasSurrogateKey_iff.mpr hs
  · intro hs
    apply listed_problems_merge
    rw [← Bool.not_eq_true, hasSurrogateKey_iff]
    rintro ⟨t, ht, hsurrogate⟩
    rw [hs t ht] at hsurrogate
    cases hsurrogate
  · intro f t v ht
    rw [resolve_put ht]
    exact settings_eq_error_iff.mpr ⟨rfl, hne⟩

/-- A settings file with a hidden value that is not good, three others, and two keys that are no fields. -/
def faultyContent : Utf8.Bytes :=
  Utf8.encode "extra: 1\nlog_level: loud\n5: x\nvariant: 7\nsource: ~\ndestination: !!binary /w==\n".toList

def faultyMapping : Mapping :=
  [(.str "extra", .int 1), (.str "log_level", .str "loud"), (.int 5, .str "x"), (.str "variant", .int 7),
    (.str "source", .null), (.str "destination", .bytes [255])]

def faultyFiles : Files := ⟨[], [(["c"], .file faultyContent)]⟩

def faultyProblems : List Problem :=
  [.notUnicode .destination, .invalid .variant, .invalid .logLevel, .extra "extra", .keyNotString "5"]

theorem load_problems_faultyFiles :
    mapping faultyFiles (some "c") [("POLICYGEN_SOURCE", "s")] = .ok faultyMapping ∧
    load faultyFiles (some "c") [("POLICYGEN_SOURCE", "s")] = .error (.invalid faultyProblems) ∧
    Error.message (.invalid faultyProblems) =
      "invalid settings: destination: Input should be a valid string, unable to parse raw data as a unicode string; " ++
        "variant: Input should be 'permissive' or 'strict'; " ++
        "log_level: Input should be 'DEBUG', 'INFO', 'WARNING', 'ERROR' or 'CRITICAL'; " ++
        "extra: Extra inputs are not permitted; 5: Keys should be strings" ∧
    Listed faultyMapping [("POLICYGEN_SOURCE", "s")] faultyProblems ∧
    resolve (Yaml.Value.put faultyMapping (.str "source") (.str "t")) [("POLICYGEN_SOURCE", "s")] =
      .error faultyProblems := by
  have hd : Yaml.Document.read faultyContent = .ok (.mapping faultyMapping) := by decide +kernel
  have hfile : mapping faultyFiles (some "c") [("POLICYGEN_SOURCE", "s")] = .ok faultyMapping :=
    mapping_of_read (by rfl) (by rfl) hd
  have hload : load faultyFiles (some "c") [("POLICYGEN_SOURCE", "s")] =
      .error (.invalid faultyProblems) := by
    rw [load_eq_mapping, hfile]
    rfl
  obtain ⟨ps, hps, -, -, -, hlisted, -, hhidden⟩ := load_problems hfile hload
  obtain rfl := Error.invalid.inj hps
  have hno : ∀ t, .str t ∈ faultyMapping.map Prod.fst → t.hasSurrogate = false := by
    intro t ht
    by_contra hs
    have hkey := hasSurrogateKey_iff.mpr ⟨t, ht, Bool.eq_true_of_not_eq_false hs⟩
    exact absurd hkey (by decide)
  exact ⟨hfile, hload, by decide +kernel, hlisted hno, hhidden .source "s" (.str "t") (by rfl)⟩

/-- A settings file with a key that is a lone surrogate, and two problems besides. -/
def surrogateContent : Utf8.Bytes :=
  Utf8.encode "zz: 1\n\"\\ud800\": 2\nvariant: bad\n".toList

def surrogateMapping : Mapping :=
  [(.str "zz", .int 1), (.str [.firstHigh], .int 2), (.str "variant", .str "bad")]

/-- Not all problems are listed in every case: the variant is not reported beside the surrogate. -/
theorem load_surrogateKey : ¬∀ fs config env file e, mapping fs config env = .ok file →
    load fs config env = .error e → ∃ ps,
      e.message = "invalid settings: " ++ Text.join "; " (ps.map (·.message)) ∧ Listed file env ps := by
  intro h
  have hd : Yaml.Document.read surrogateContent = .ok (.mapping surrogateMapping) := by decide +kernel
  have hfile : mapping ⟨[], [(["c"], .file surrogateContent)]⟩ (some "c") [] = .ok surrogateMapping :=
    mapping_of_read (by rfl) (by rfl) hd
  have hload : load ⟨[], [(["c"], .file surrogateContent)]⟩ (some "c") [] =
      .error (.invalid [.keyNotUnicode]) := by
    rw [load_eq_mapping, hfile]
    rfl
  obtain ⟨ps, hmessage, ofFields, ofKeys, rfl, hfields, -⟩ := h _ _ _ _ _ hfile hload
  have hrefuses : Field.Refuses .variant (chosen surrogateMapping [] .variant) :=
    (Field.refuses_iff_of_choices rfl).mpr (by rintro t ⟨⟩; decide)
  have hvariant : .invalid .variant ∈ ofFields :=
    hfields.mem_iff.mpr ⟨2, .variant, rfl, hrefuses, rfl⟩
  -- its message has quotes, and there is none in the report
  have hquote : CodePoint.ofChar '\'' ∈ Error.message (.invalid [.keyNotUnicode]) := by
    rw [hmessage]
    apply List.mem_append_right
    apply Text.mem_join (List.mem_map_of_mem (List.mem_append_left ofKeys hvariant))
    decide
  exact absurd hquote (by decide)

end

end Allowlist.Settings
