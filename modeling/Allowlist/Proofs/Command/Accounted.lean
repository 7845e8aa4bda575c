import Allowlist.Proofs.Command.Check
import Allowlist.Proofs.Run.Events

/-!
# Every run is accounted for once

The events of a run end with one error if it fails, and with one information if it has written a
policy; all others are for debugging. Each event at or above the level of the run is logged once, under
the run id that was made for the run. Afterwards the run id before is current again, and no later run
is given the same one.
-/
namespace Allowlist.Command

/-- How many run ids there are. -/
def runIdCount : Nat := 0x10000000000000000

theorem World.nextId_ne_nil (w : World) : some w.nextId ≠ some [] :=
  fun h => Log.runIdOf_ne_nil _ (Option.some.inj h)

/-- What an event writes to the log under a run id. -/
def Plan.line (p : Plan) (c : Call) (id : Text) (e : Event) : Text :=
  (e.record c.logger).named.line p.layout c.clock (some id)

/-- A run gets past its settings and ends with a report. -/
structure Returns (c : Call) (w : World) (p : Plan) (w' : World) (r : Report) : Prop where
  settings : ∃ a s, readArguments c.arguments = .ok a ∧
    Settings.load w.files a.config c.environment = .ok s ∧ p = Plan.of a s c.terminal
  run : Command.run c w = (w', .ok r)

/-- What the log, the exit code and standard output of a run tell agrees. -/
structure Accounted (c : Call) (w : World) (p : Plan) (w' : World) (r : Report) : Prop where
  out : r.out ≠ [] ↔ r.code = 0
  errors : (p.events w.files).countP (·.level = Log.Level.error) = if r.code = 0 then 0 else 1
  infos : (p.events w.files).countP (·.level = Log.Level.info) =
    if p.check = false ∧ r.code = 0 then 1 else 0
  others : ∀ e ∈ p.events w.files, e.level = Log.Level.error ∨ e.level = Log.Level.info ∨
    e.level = Log.Level.debug
  err : r.err = ((p.events w.files).filter (p.level ≤ ·.level)).flatMap
      (fun e => p.line c w.nextId e ++ Log.State.newline) ++ (p.conclude (p.perform w.files).2).err
  shown : ∀ e ∈ p.events w.files,
    Log.Shows p.layout c.clock (some w.nextId) (e.record c.logger).named (p.line c w.nextId e)
  current : w'.log.runId = w.log.runId

/-- What is left of logging after runs one after the other, each on the files that it finds. -/
def logAfter (log : Log.State) (runs : List (Call × Files)) : Log.State :=
  runs.foldl (fun log r => (run r.1 ⟨r.2, log⟩).1.log) log

/-- An event of a run is written in JSON with the run id. -/
def Carries (c : Call) (w : World) (p : Plan) (id : Text) : Prop :=
  p.layout = .json ∧ ∃ e ∈ p.events w.files, p.level ≤ e.level ∧ ∃ fields : Fields Json,
    (e.record c.logger).named.toJson c.clock (some w.nextId) = .obj fields ∧
      fields.get? "run_id" = some (.str id)

namespace Plan

theorem level_of_mem_stages {p : Plan} {fs : Files} {e : Event} (h : e ∈ p.stages fs) :
    e.level = Log.Level.debug := by
  rw [stages] at h
  split at h
  · exact Event.level_of_mem_ofVerify h
  · exact Event.level_of_mem_ofGenerate h

/-- Above the level for debugging only the closing event counts. -/
theorem countP_events (p : Plan) (fs : Files) {l : Log.Level} (hl : Log.Level.debug ≠ l) :
    (p.events fs).countP (·.level = l) =
      (p.closing (p.perform fs).2).countP (·.level = l) := by
  have hstages : (p.stages fs).countP (·.level = l) = 0 := by
    rw [List.countP_eq_zero]
    intro e he
    simp [level_of_mem_stages he, hl]
  rw [events, List.countP_append, hstages, Nat.zero_add]

theorem countP_error_closing (p : Plan) (ending : Ending) :
    (p.closing ending).countP (·.level = Log.Level.error) =
      if (p.conclude ending).code = 0 then 0 else 1 := by
  cases ending with
  | failed f => cases f <;> rfl
  | _ => rfl

/-- A check does not write, and a run that is no check does not leave everything as it is. -/
theorem perform_cases (p : Plan) (fs : Files) :
    (p.check = true ∧ (p.perform fs).2 = .upToDate) ∨
    (p.check = false ∧ ∃ q, (p.perform fs).2 = .wrote q) ∨ ∃ f, (p.perform fs).2 = .failed f := by
  cases he : (p.perform fs).2 with
  | upToDate => exact .inl ⟨(perform_eq_upToDate_iff.mp he).1, rfl⟩
  | wrote q => exact .inr (.inl ⟨(perform_eq_wrote_iff.mp he).1, q, rfl⟩)
  | failed f => exact .inr (.inr ⟨f, rfl⟩)

theorem countP_info_closing (p : Plan) (fs : Files) :
    (p.closing (p.perform fs).2).countP (·.level = Log.Level.info) =
      if p.check = false ∧ (p.conclude (p.perform fs).2).code = 0 then 1 else 0 := by
  rcases p.perform_cases fs with ⟨hc, he⟩ | ⟨hc, q, he⟩ | ⟨f, he⟩ <;> rw [he]
  · rw [hc]
    rfl
  · rw [hc]
    rfl
  · rw [if_neg fun h => p.code_conclude_failed f h.2]
    cases f <;> rfl

theorem out_conclude_ne_nil_iff (p : Plan) (ending : Ending) :
    (p.conclude ending).out ≠ [] ↔ (p.conclude ending).code = 0 := by
  cases ending with
  | failed f => cases f <;> simp [conclude]
  | upToDate =>
    refine iff_of_true ?_ rfl
    simp only [conclude, List.append_assoc]
    exact List.append_ne_nil_of_left_ne_nil (by decide) _
  | wrote q =>
    refine iff_of_true ?_ rfl
    simp only [conclude, List.append_assoc]
    exact List.append_ne_nil_of_left_ne_nil (by decide) _

end Plan

section

variable {c : Call} {p : Plan} {w w' : World} {r : Report}

theorem log_within (c : Call) (p : Plan) (w : World) (e : Event) :
    (p.within w).log c.clock (e.record c.logger) =
      .ok (if p.level ≤ e.level then [.ok (p.line c w.nextId e)] else []) := by
  have hconfigured : Log.Configured (p.within w) (some (p.level, p.layout)) := ⟨rfl, rfl⟩
  split
  · next hl =>
    exact Log.log_renderable hconfigured c.clock e.level_pos hl (e.renderable_record c.logger)
      fun key hk => (e.keys_extras key hk).1
  · next hl => exact Log.log_below hconfigured c.clock (Int.not_le.mp hl)

/-- One handler writes each event once, from the level of the run upwards. -/
theorem logged_within (c : Call) (p : Plan) (w : World) (es : List Event) :
    logged c (p.within w) es = (es.filter (p.level ≤ ·.level)).flatMap
      (fun e => p.line c w.nextId e ++ Log.State.newline) := by
  induction es with
  | nil => rfl
  | cons e rest ih =>
    rw [logged, List.flatMap_cons, log_within, ← logged, ih, List.filter_cons]
    by_cases hl : p.level ≤ e.level
    · rw [if_pos (decide_eq_true hl), List.flatMap_cons, if_pos hl]
      exact congrArg (· ++ _) (List.append_nil _)
    · rw [if_neg hl, if_neg (by simpa using hl)]
      rfl

theorem Returns.carryOut (h : Returns c w p w' r) : carryOut c p w = (w', .ok r) := by
  obtain ⟨a, s, ha, hs, rfl⟩ := h.settings
  rw [← run_of_settings ha hs, h.run]

theorem returns_of_report {a : Arguments} {s : Settings} (h : (run c w).2 = .ok r)
    (ha : readArguments c.arguments = .ok a)
    (hs : Settings.load w.files a.config c.environment = .ok s) :
    Returns c w (Plan.of a s c.terminal) (run c w).1 r :=
  ⟨⟨a, s, ha, hs, rfl⟩, Prod.ext rfl h⟩

theorem Returns.accounted (h : Returns c w p w' r) : Accounted c w p w' r := by
  have hlog := log_carryOut c p w
  have hreport := report_carryOut (congrArg Prod.snd h.carryOut)
  rw [h.carryOut] at hlog
  have hcode : r.code = (p.conclude (p.perform w.files).2).code := by rw [hreport, Plan.report]
  refine ⟨?_, ?_, ?_, fun e _ => e.level_cases, ?_, ?_, ?_⟩
  · rw [hreport, Plan.report]
    exact p.out_conclude_ne_nil_iff _
  · rw [p.countP_events _ (by decide), p.countP_error_closing, hcode]
  · rw [p.countP_events _ (by decide), p.countP_info_closing, hcode]
  · rw [hreport, Plan.report, logged_within]
  · exact fun e _ => Log.Record.shows_line _ _ w.nextId_ne_nil e.keys_extras
  · rw [hlog]

/-- The only run id that a run writes is its own. -/
theorem Carries.id_eq {id : Text} (h : Carries c w p id) : id = w.nextId := by
  obtain ⟨-, e, -, -, fields, hfields, hid⟩ := h
  obtain rfl := Json.obj.inj hfields
  have hkey : ("run_id" : Text) ∉ (e.record c.logger).named.extras.keys :=
    fun hk => (e.keys_extras "run_id" hk).2 rfl
  rw [Log.Record.get?_toJson_fields _ hkey, Log.Record.get?_base_runId,
    Log.Record.shownId_eq_self w.nextId_ne_nil] at hid
  exact (Json.str.inj (Option.some.inj hid)).symm

/-- No run takes back a run id that was made. -/
theorem made_run (c : Call) (w : World) : w.log.made ≤ (run c w).1.log.made := by
  rw [run]
  split
  · exact Nat.le_refl _
  · exact Nat.le_refl _
  · split
    · split
      · exact Nat.le_refl _
      · exact Nat.le_refl _
    · rw [log_carryOut]
      exact Nat.le_succ _

theorem made_logAfter (log : Log.State) (runs : List (Call × Files)) :
    log.made ≤ (logAfter log runs).made := by
  induction runs generalizing log with
  | nil => exact Nat.le_refl _
  | cons first rest ih => exact Nat.le_trans (made_run first.1 ⟨first.2, log⟩) (ih _)

theorem nextId_ne {later : World} (hlater : w.log.made < later.log.made)
    (hmany : later.log.made < runIdCount) : w.nextId ≠ later.nextId := by
  intro h
  have hchars := Text.ofChars_inj (List.append_cancel_left h)
  have hmod : (w.log.made + 1) % runIdCount = (later.log.made + 1) % runIdCount :=
    Digits.mod_eq_of_fixed_eq 16 hchars
  rw [runIdCount] at hmany hmod
  omega

end

/-- Of a run that gets past its settings and ends with a report, the log tells once how it ended, under
a run id of its own. A later run in the same process has another one, whatever runs come between, as
long as there are run ids left. -/
theorem run_accounted {c : Call} {w w' : World} {p : Plan} {r : Report} (h : Returns c w p w' r) :
    Accounted c w p w' r ∧
    ∀ between c₂ w₂ p₂, w₂.log = logAfter w'.log between → w₂.log.made < runIdCount →
      w.nextId ≠ w₂.nextId ∧ ∀ id, Carries c w p id → ¬Carries c₂ w₂ p₂ id := by
  refine ⟨h.accounted, fun between c₂ w₂ p₂ hlog hmany => ?_⟩
  have hmade : w.log.made < w₂.log.made := by
    have hrun := log_carryOut c p w
    rw [h.carryOut] at hrun
    have hbetween := made_logAfter w'.log between
    rw [← hlog, hrun] at hbetween
    exact hbetween
  have hne : w.nextId ≠ w₂.nextId := nextId_ne hmade hmany
  refine ⟨hne, fun id hid hid₂ => hne ?_⟩
  rw [← hid.id_eq, ← hid₂.id_eq]

/-- There is no such surface. -/
def missingCall : Call := { plainCall with arguments := ["--log-level", "ERROR", "x", "p"] }

def missingPlan : Plan := ⟨"x", "p", .permissive, false, Log.Level.error, .json⟩

theorem returns_missingCall (log : Log.State) :
    ∃ w r, Returns missingCall ⟨currentWorld.files, log⟩ missingPlan w r ∧ r.code = 2 := by
  have ha : readArguments missingCall.arguments = .ok { Arguments.none with
      source := some "x", destination := some "p", logLevel := some .error } := by rfl
  have hs : Settings.load currentWorld.files none missingCall.environment = .ok .default := by rfl
  obtain ⟨r, hr, hcode⟩ :
      ∃ r, (run missingCall ⟨currentWorld.files, log⟩).2 = .ok r ∧ r.code = 2 := ⟨_, rfl, rfl⟩
  exact ⟨_, r, returns_of_report hr ha hs, hcode⟩

def plainPlan : Plan := ⟨"s", "p", .permissive, false, Log.Level.warning, .json⟩

theorem returns_plainCall : ∃ w r, Returns plainCall currentWorld plainPlan w r ∧ r.code = 0 := by
  have ha : readArguments plainCall.arguments = .ok plainArguments := by rfl
  have hs : Settings.load currentWorld.files none plainCall.environment = .ok .default := by rfl
  have hcompile : Policy.compile Policy.oneEntry "s" none = .ok Policy.oneModule := by rfl
  have hfile : Policy.ofFile currentWorld.files "s" .permissive = .ok Policy.oneModule :=
    Policy.ofFile_eq_ok_iff.mpr ⟨_, Policy.load_oneModuleFiles, hcompile⟩
  have hg : currentWorld.files.Grounded := by decide
  obtain ⟨⟨r, hr, hcode⟩, -⟩ := (succeeds_unchanged_iff (c := plainCall) (p := plainPlan) hg rfl).mpr
    ⟨by rfl, _, hfile, Policy.read_oneModuleFiles⟩
  have hrun : (run plainCall currentWorld).2 = .ok r := by
    rw [run_of_settings ha hs]
    exact hr
  exact ⟨_, r, returns_of_report hrun ha hs, hcode⟩

/-- A run that writes its policy, and after it one in the same process that fails. -/
theorem run_accounted_plainCall : ∃ w r w₂ w₂' r₂,
    Returns plainCall currentWorld plainPlan w r ∧ w₂.log = logAfter w.log [] ∧
    w₂.log.made < runIdCount ∧ Returns missingCall w₂ missingPlan w₂' r₂ ∧
    r.out ≠ [] ∧ (plainPlan.events currentWorld.files).countP (·.level = Log.Level.info) = 1 ∧
    r₂.out = [] ∧ (missingPlan.events w₂.files).countP (·.level = Log.Level.error) = 1 ∧
    currentWorld.nextId ≠ w₂.nextId := by
  obtain ⟨w, r, hfirst, hcode⟩ := returns_plainCall
  obtain ⟨w₂', r₂, hsecond, hcode₂⟩ := returns_missingCall w.log
  have hmade : w.log.made < runIdCount := by
    have hlog := log_carryOut plainCall plainPlan currentWorld
    rw [hfirst.carryOut] at hlog
    rw [hlog]
    decide
  obtain ⟨haccounted, hlater⟩ := run_accounted hfirst
  obtain ⟨haccounted₂, -⟩ := run_accounted hsecond
  obtain ⟨hne, -⟩ := hlater [] missingCall ⟨currentWorld.files, w.log⟩ missingPlan rfl hmade
  have hinfos := haccounted.infos
  have herrors := haccounted₂.errors
  rw [if_pos ⟨rfl, hcode⟩] at hinfos
  rw [hcode₂] at herrors
  have hout : r₂.out = [] := by
    by_contra h
    exact absurd (haccounted₂.out.mp h) (by simp [hcode₂])
  exact ⟨w, r, ⟨currentWorld.files, w.log⟩, w₂', r₂, hfirst, rfl, hmade, hsecond,
    haccounted.out.mpr hcode, hinfos, hout, herrors, hne⟩

end Allowlist.Command
