import Allowlist.Proofs.Command.Hint
import Allowlist.Proofs.Command.Layers
import Allowlist.Proofs.Policy.Rendering
import Allowlist.Proofs.Run.Idempotent
import Allowlist.Proofs.Run.Stopped
import Allowlist.Proofs.Settings.Policy

/-!
# Running the command that a report shows

The command that is shown has the source, the destination and whether the variant is strict, and takes
all else from the environment. So a strict check succeeds once the command has run, unless the policy has
taken the place of its settings file. A permissive one succeeds only if, besides, the settings that the
command finds give the same policy, since no argument says that the variant is permissive.
-/
namespace Allowlist.Command

variable {c : Call} {w w' : World} {a : Arguments} {s : Settings} {p : Plan} {report : Report}

theorem Plan.perform_of_drift {fs : Files} {vs : List Violation} (hp : p.check = true)
    (hne : vs ≠ []) (hv : Policy.verify fs p.source p.destination p.variant = .ok vs) :
    p.perform fs = (fs, .failed (.drift p.destination vs)) := by
  have he : Policy.enforce fs p.source p.destination p.variant =
      .error (.drift p.destination vs) :=
    Policy.enforce_eq_error_iff.mpr (.inr ⟨vs, hne, hv, rfl⟩)
  rw [perform, if_pos hp, he]

/-- A run that checks by a plan, and reports that the policy file has drifted. -/
structure Drifted (c : Call) (w : World) (a : Arguments) (s : Settings) (p : Plan)
    (report : Report) : Prop where
  arguments : readArguments c.arguments = .ok a
  settings : Settings.load w.files a.config c.environment = .ok s
  plan : p = Plan.of a s c.terminal
  check : a.check = true
  drifted : ∃ vs, vs ≠ [] ∧ Policy.verify w.files p.source p.destination p.variant = .ok vs
  report : (run c w).2 = .ok report

namespace Drifted

theorem checking (h : Drifted c w a s p report) : p.check = true := by
  rw [h.plan]
  exact h.check

theorem run_eq (h : Drifted c w a s p report) : run c w = carryOut c p w := by
  rw [h.plan]
  exact run_of_settings h.arguments h.settings

theorem perform (h : Drifted c w a s p report) : ∃ vs,
    p.perform w.files = (w.files, .failed (.drift p.destination vs)) := by
  obtain ⟨vs, hne, hv⟩ := h.drifted
  exact ⟨vs, Plan.perform_of_drift h.checking hne hv⟩

/-- A check leaves all files as they are. -/
theorem files (h : Drifted c w a s p report) : (run c w).1.files = w.files := by
  obtain ⟨vs, hp⟩ := h.perform
  rw [h.run_eq, files_carryOut, hp]

/-- The report shows the arguments of the command. -/
theorem hint (h : Drifted c w a s p report) (hs : IsWord p.source) (hd : IsWord p.destination) :
    report.hint = p.rerunArguments := by
  obtain ⟨vs, hp⟩ := h.perform
  have hr := h.report
  rw [h.run_eq] at hr
  rw [report_carryOut hr, Plan.report, hp]
  exact Plan.hint_conclude_drift hs hd p.destination vs _

theorem variant_mem (h : Drifted c w a s p report) : p.variant ∈ Variant.all := by
  rw [h.plan]
  exact Plan.variant_mem_of (known_readArguments h.arguments)
    (Settings.variant_mem_of_load h.settings) c.terminal

end Drifted

/-- Drift is always reported. -/
theorem exists_drifted {vs : List Violation} (ha : readArguments c.arguments = .ok a)
    (hs : Settings.load w.files a.config c.environment = .ok s) (hp : p = Plan.of a s c.terminal)
    (hc : a.check = true) (hne : vs ≠ [])
    (hv : Policy.verify w.files p.source p.destination p.variant = .ok vs) :
    ∃ report, Drifted c w a s p report := by
  have hchecking : p.check = true := by
    rw [hp]
    exact hc
  have hperform := Plan.perform_of_drift hchecking hne hv
  have hrun : (run c w).2 = .ok (p.report c w) := by
    rw [run_of_settings ha hs, ← hp, carryOut_eq, outcome_of_failed (congrArg Prod.snd hperform)]
    rfl
  exact ⟨_, ha, hs, hp, hc, ⟨vs, hne, hv⟩, hrun⟩

theorem succeeds_generating_iff {fs : Files} (hp : p.check = false) :
    Succeeds (carryOut c p w) ∧ (carryOut c p w).1.files = fs ↔ p.Told c ∧
      ∃ q, Policy.generate w.files p.source p.destination p.variant = (fs, .ok q) := by
  rw [succeeds_carryOut_iff, files_carryOut]
  cases hg : Policy.generate w.files p.source p.destination p.variant with
  | mk files r =>
    cases r with
    | error f => simp [Plan.perform, hp, hg]
    | ok q => simp [Plan.perform, hp, hg]

/-- The variant that the command takes. -/
def Plan.rerunVariant (p : Plan) (s : Settings) : Variant :=
  if p.variant.isStrict then .strict else s.variant

/-- The command generates the policy of the source, in the variant that it takes, and tells so. -/
theorem succeeds_rerunArguments_iff {fs : Files} (hs : IsWord p.source) (hd : IsWord p.destination)
    (hl : Settings.load w.files none c.environment = .ok s) :
    Succeeds (run { c with arguments := p.rerunArguments } w) ∧
        (run { c with arguments := p.rerunArguments } w).1.files = fs ↔
      p.Told c ∧
        ∃ q, Policy.generate w.files p.source p.destination (p.rerunVariant s) = (fs, .ok q) := by
  have ha := readArguments_rerunArguments hs.noOption hd.noOption
  rw [run_of_settings ha hl, succeeds_generating_iff rfl, Plan.rerunVariant]
  cases p.variant.isStrict <;> rfl

theorem exists_settings_of_succeeds (ha : readArguments c.arguments = .ok a)
    (h : Succeeds (run c w)) : ∃ s, Settings.load w.files a.config c.environment = .ok s := by
  cases hl : Settings.load w.files a.config c.environment with
  | error e => exact absurd h (not_succeeds_of_settings ha hl)
  | ok s => exact ⟨s, rfl⟩

/-- The destination names the settings file. -/
def ReplacesSettings (fs : Files) (c : Call) (a : Arguments) (p : Plan) : Prop :=
  ∃ name, Settings.fileOf a.config c.environment = some name ∧
    fs.SameFile (Path.ofText p.destination) (Path.ofText name)

/-- The check finds its settings as they were, unless the policy has taken their place. -/
theorem Drifted.load_of_generate {variant : Variant} {fs : Files} {q : Policy}
    (h : Drifted c w a s p report)
    (hq : Policy.generate w.files p.source p.destination variant = (fs, .ok q)) {s' : Settings} :
    Settings.load fs a.config c.environment = .ok s' ↔ ¬ReplacesSettings fs c a p ∧ s' = s := by
  by_cases hreplaces : ReplacesSettings fs c a p
  · obtain ⟨name, hn, hsame⟩ := hreplaces
    have hr : fs.read (Path.ofText name) = .ok q.render :=
      hsame.read_eq.trans (Policy.read_of_generate hq)
    have hload : Settings.load fs a.config c.environment ≠ .ok s' :=
      Settings.load_render_ne_ok q hn hr
    have hreplaces : ReplacesSettings fs c a p := ⟨name, hn, hsame⟩
    simp [hload, hreplaces]
  · have hload : Settings.load fs a.config c.environment = .ok s := by
      rw [← h.settings]
      refine Settings.load_congr fun name hn => ?_
      obtain ⟨content, hr⟩ := Settings.exists_read_of_load h.settings hn
      exact Policy.read_eq_of_generate hq hr fun hsame => hreplaces ⟨name, hn, hsame⟩
    simp [hload, hreplaces, eq_comm]

/-- After a policy has been generated, the check succeeds exactly if it finds its settings and that
policy is the one that it asks for, given that its success can be told. -/
theorem Drifted.succeeds_iff_of_generate {variant : Variant} {q : Policy}
    (h : Drifted c w a s p report)
    (hq : Policy.generate w.files p.source p.destination variant = (w'.files, .ok q))
    (ht : p.Told c)
    (hsource : ¬w'.files.SameFile (Path.ofText p.destination) (Path.ofText p.source)) :
    Succeeds (run c w') ↔ ¬ReplacesSettings w'.files c a p ∧
      Policy.ofFile w.files p.source p.variant = .ok q := by
  by_cases hreplaces : ReplacesSettings w'.files c a p
  · refine iff_of_false (fun hcheck => ?_) fun hn => hn.1 hreplaces
    obtain ⟨s', hload⟩ := exists_settings_of_succeeds h.arguments hcheck
    exact ((h.load_of_generate hq).mp hload).1 hreplaces
  · have hload : Settings.load w'.files a.config c.environment = .ok s :=
      (h.load_of_generate hq).mpr ⟨hreplaces, rfl⟩
    have hplan : p = p.checking := by
      rw [Plan.checking, ← h.checking]
    have hrender (r : Policy) :
        (Except.ok q.render : Except Files.Error Utf8.Bytes) = .ok r.render ↔ q = r := by
      rw [Except.ok.injEq, Policy.render_injective.eq_iff]
    rw [and_iff_right hreplaces, run_of_settings h.arguments hload, ← h.plan, hplan,
      succeeds_checking_iff, and_iff_right ht]
    rw [← hplan, Policy.ofFile_of_generate hq hsource, Policy.read_of_generate hq]
    simp only [hrender, exists_eq_right']

/-- After the command that is shown has run with success, the check succeeds exactly if its settings
file is not the one that was written, and it is strict or the settings of the command give the same
policy. -/
theorem succeeds_after_rerun_iff (h : Drifted c w a s p report) (hs : IsWord p.source)
    (hd : IsWord p.destination)
    (hrerun : Succeeds (run { c with arguments := report.hint } (run c w).1))
    (hw : w' = (run { c with arguments := report.hint } (run c w).1).1)
    (hsource : ¬w'.files.SameFile (Path.ofText p.destination) (Path.ofText p.source)) :
    report.hint = p.rerunArguments ∧ ∃ s', Settings.load w.files none c.environment = .ok s' ∧
      (Succeeds (run c w') ↔ ¬ReplacesSettings w'.files c a p ∧ (p.variant.isStrict ∨
        Policy.ofFile w.files p.source s'.variant = Policy.ofFile w.files p.source p.variant)) := by
  have hhint : report.hint = p.rerunArguments := h.hint hs hd
  rw [hhint] at hrerun hw
  obtain ⟨s', hs'⟩ :=
    exists_settings_of_succeeds (readArguments_rerunArguments hs.noOption hd.noOption) hrerun
  obtain ⟨ht, q, hq⟩ := (succeeds_rerunArguments_iff hs hd hs').mp ⟨hrerun, rfl⟩
  rw [← hw] at hq
  rw [h.files] at hs' hq
  refine ⟨hhint, s', hs', ?_⟩
  rw [h.succeeds_iff_of_generate hq ht hsource, ← (Policy.generate_eq_ok_iff.mp hq).1,
    Plan.rerunVariant]
  cases hv : p.variant.isStrict with
  | true => simp [Variant.eq_strict h.variant_mem hv]
  | false => simp [eq_comm]

/-- A surface with the modules of the strict variant and one more. -/
def wideSurface : Json :=
  Surface.toJson ⟨(("x" : Text) :: ankaModules).map fun n => Entry.toJson ⟨n, "e"⟩⟩

/-- The policies of the two variants differ by a module. -/
def narrowPolicy : Policy where
  source := "s"
  modules := (["std/artifact", "std/bytes", "std/codec", "std/fs", "std/hash", "std/http", "std/json",
    "std/list", "std/option", "std/record", "std/result", "std/str", "std/time", "std/trace"] :
      List Text).map fun n => (n, ["e"])

def widePolicy : Policy := { narrowPolicy with modules := (narrowPolicy.modules.put "x" ["e"]) }

/-- There is no policy file yet. -/
def staleWorld : World :=
  ⟨⟨[], [(["s"], .file (Utf8.encode wideSurface.canonical))]⟩, Log.State.start⟩

/-- The environment asks for the strict variant, and the command line for the other one. -/
def permissiveCheck : Call :=
  { plainCall with
    arguments := ["--variant", "permissive", "--check", "s", "p"]
    environment := [("POLICYGEN_VARIANT", "strict")] }

def permissiveArguments : Arguments :=
  { pathArguments "s" "p" with variant := some .permissive, check := true }

def strictSettings : Settings := { Settings.default with variant := .strict }

def permissivePlan : Plan := ⟨"s", "p", .permissive, true, .warning, .json⟩

theorem load_staleWorld : Surface.load staleWorld.files "s" = .ok wideSurface :=
  Surface.load_canonical (by decide) (by rfl)

theorem compile_wideSurface :
    Policy.compile wideSurface "s" Variant.permissive.required = .ok widePolicy ∧
      Policy.compile wideSurface "s" Variant.strict.required = .ok narrowPolicy ∧
        narrowPolicy ≠ widePolicy := by
  refine ⟨by rfl, by rfl, fun h => ?_⟩
  have hlength := congrArg (fun q : Policy => q.modules.length) h
  exact absurd hlength (by decide)

theorem verify_staleWorld :
    Policy.verify staleWorld.files "s" "p" .permissive = .ok [.absent (Path.ofText "p")] := by
  have hthere : Policy.isThere staleWorld.files (Path.ofText "p") = .ok false := by rfl
  rw [Policy.verify, load_staleWorld]
  simp only [compile_wideSurface.1, hthere]

/-- The policy of the strict variant has been stored. -/
def narrowFiles : Files := staleWorld.files.place ["p"] (.file narrowPolicy.render)

theorem generate_staleWorld : Policy.generate staleWorld.files permissivePlan.source
    permissivePlan.destination (permissivePlan.rerunVariant strictSettings) =
      (narrowFiles, .ok narrowPolicy) := by
  have hvariant : permissivePlan.rerunVariant strictSettings = .strict := by rfl
  have hfile : Policy.ofFile staleWorld.files "s" .strict = .ok narrowPolicy :=
    Policy.ofFile_eq_ok_iff.mpr ⟨_, load_staleWorld, compile_wideSurface.2.1⟩
  rw [hvariant]
  exact Policy.generate_eq_ok_iff.mpr ⟨hfile, by rfl⟩

theorem not_sameFile_narrowFiles : ¬narrowFiles.SameFile (Path.ofText permissivePlan.destination)
    (Path.ofText permissivePlan.source) := by
  have hd : narrowFiles.lookup (Path.ofText permissivePlan.destination) =
      .ok (["p"], .file narrowPolicy.render) := by rfl
  have hs : narrowFiles.lookup (Path.ofText permissivePlan.source) =
      .ok (["s"], .file (Utf8.encode wideSurface.canonical)) := by rfl
  exact Files.not_sameFile_of_lookup hd hs (by decide)

/-- The command that a permissive check shows generates the strict policy, and the check goes on
to fail. -/
theorem check_strictEnvironment : ∃ report w',
    Drifted permissiveCheck staleWorld permissiveArguments strictSettings permissivePlan report ∧
    IsWord permissivePlan.source ∧ IsWord permissivePlan.destination ∧
    Succeeds (run { permissiveCheck with arguments := report.hint }
      (run permissiveCheck staleWorld).1) ∧
    w' = (run { permissiveCheck with arguments := report.hint }
      (run permissiveCheck staleWorld).1).1 ∧
    ¬w'.files.SameFile (Path.ofText permissivePlan.destination)
      (Path.ofText permissivePlan.source) ∧
    ¬ReplacesSettings w'.files permissiveCheck permissiveArguments permissivePlan ∧
    ¬Succeeds (run permissiveCheck w') := by
  have hs : IsWord permissivePlan.source := ⟨by decide, by decide, by decide⟩
  have hd : IsWord permissivePlan.destination := ⟨by decide, by decide, by decide⟩
  have hl : Settings.load staleWorld.files none permissiveCheck.environment =
      .ok strictSettings := by rfl
  obtain ⟨report, h⟩ : ∃ report,
      Drifted permissiveCheck staleWorld permissiveArguments strictSettings permissivePlan report :=
    exists_drifted (by rfl) hl rfl rfl (by simp) verify_staleWorld
  have hl' : Settings.load (run permissiveCheck staleWorld).1.files none
      permissiveCheck.environment = .ok strictSettings := by
    rw [h.files]
    exact hl
  have hgenerate : ∃ q, Policy.generate (run permissiveCheck staleWorld).1.files
      permissivePlan.source permissivePlan.destination
        (permissivePlan.rerunVariant strictSettings) = (narrowFiles, .ok q) := by
    rw [h.files]
    exact ⟨narrowPolicy, generate_staleWorld⟩
  obtain ⟨hrerun, hfiles⟩ := (succeeds_rerunArguments_iff hs hd hl').mpr ⟨by rfl, hgenerate⟩
  rw [← h.hint hs hd] at hrerun hfiles
  have hsame := not_sameFile_narrowFiles
  rw [← hfiles] at hsame
  have hnone : Settings.fileOf permissiveArguments.config permissiveCheck.environment = none := rfl
  have hreplaces (fs : Files) :
      ¬ReplacesSettings fs permissiveCheck permissiveArguments permissivePlan := by
    rintro ⟨name, hn, -⟩
    cases hnone.symm.trans hn
  refine ⟨report, _, h, hs, hd, hrerun, rfl, hsame, hreplaces _, fun hcheck => ?_⟩
  obtain ⟨-, s', hs', hiff⟩ := succeeds_after_rerun_iff h hs hd hrerun rfl hsame
  obtain rfl := Except.ok.inj (hl.symm.trans hs')
  rcases (hiff.mp hcheck).2 with hstrict | hpolicy
  · cases hstrict
  · have hwide : Policy.ofFile staleWorld.files permissivePlan.source permissivePlan.variant =
        .ok widePolicy := Policy.ofFile_eq_ok_iff.mpr ⟨_, load_staleWorld, compile_wideSurface.1⟩
    have hnarrow : Policy.ofFile staleWorld.files permissivePlan.source strictSettings.variant =
        .ok narrowPolicy := Policy.ofFile_eq_ok_iff.mpr ⟨_, load_staleWorld, compile_wideSurface.2.1⟩
    rw [hwide, hnarrow] at hpolicy
    exact compile_wideSurface.2.2 (Except.ok.inj hpolicy)

end Allowlist.Command
