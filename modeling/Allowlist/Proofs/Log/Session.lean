import Allowlist.Log.Session
import Allowlist.Proofs.Log.Record

/-!
# Logging over a session

The last configuration whose level has a name decides about level and layout, however many there were
and whatever came between; one whose level has no name changes nothing. So there is one handler from
the first configuration on, and a record is rendered once or not at all. What is rendered is written,
unless there is no line for the record.
-/
namespace Allowlist.Log

/-- What a step sets, if it is a configuration whose level has a name. -/
def Step.setting? : Step → Option (Level × Layout)
  | .configure level layout => (Level.names.lookup level.toUpper).map fun l => (l, layout)
  | _ => none

/-- What the last configuration set. -/
def lastSetting (steps : List Step) : Option (Level × Layout) :=
  (steps.filterMap Step.setting?).getLast?

theorem lastSetting_cons (st : Step) (steps : List Step) :
    lastSetting (st :: steps) = (lastSetting steps).or st.setting? := by
  rw [lastSetting, lastSetting, List.filterMap_cons]
  cases st.setting? with
  | none => simp
  | some setting =>
    simp only [List.getLast?_cons]
    cases (steps.filterMap Step.setting?).getLast? <;> rfl

/-- Level and handlers are what was set last, or what a program starts with. -/
def Configured (s : State) : Option (Level × Layout) → Prop
  | none => s.level = Level.warning ∧ s.handlers = []
  | some (level, layout) => s.level = level ∧ s.handlers = [layout]

/-- No run id is empty, neither the current one nor one that may become it. -/
structure Identified (σ : Session) : Prop where
  current : σ.state.runId ≠ some []
  contexts : ∀ slot c, σ.contexts.get? slot = some c → c.id ≠ [] ∧ c.replaced ≠ some (some [])

section

variable {s : State} {σ : Session} {last : Option (Level × Layout)}

theorem Configured.length_handlers (h : Configured s last) :
    s.handlers.length = if last.isSome then 1 else 0 := by
  cases last with
  | none => simp [h.2]
  | some setting => simp [h.2]

/-- Taking away each of the handlers that are there leaves none. -/
theorem foldl_erase_self (layouts : List Layout) : layouts.foldl List.erase layouts = [] := by
  induction layouts with
  | nil => rfl
  | cons layout rest ih => rw [List.foldl_cons, List.erase_cons_head, ih]

theorem foldl_removeHandler (s : State) (layouts : List Layout) :
    layouts.foldl State.removeHandler s =
      { s with handlers := layouts.foldl List.erase s.handlers } := by
  induction layouts generalizing s with
  | nil => rfl
  | cons layout rest ih => rw [List.foldl_cons, ih, List.foldl_cons, State.removeHandler]

theorem set_eq (s : State) (level : Level) (layout : Layout) :
    s.set level layout = { s with level, handlers := [layout] } := by
  rw [State.set, State.removeHandlers, foldl_removeHandler, foldl_erase_self]
  rfl

/-- A configuration is refused exactly if its level has no name, and then nothing changes. -/
theorem configure_eq (s : State) (level : Text) (layout : Layout) :
    match Level.names.lookup level.toUpper with
    | some l => s.configure level layout = (s.set l layout, .ok ())
    | none => ∃ e, s.configure level layout = (s, .error e) := by
  cases h : Level.names.lookup level.toUpper with
  | some l => simp only [State.configure, Level.named, h]
  | none =>
    simp only [State.configure, Level.named, h]
    exact ⟨_, rfl⟩

theorem step_configure_refused {level : Text} (layout : Layout)
    (h : Level.names.lookup level.toUpper = none) :
    ∃ e, σ.step (.configure level layout) = (σ, .error (.unknownLevel e)) := by
  have hc := configure_eq σ.state level layout
  rw [h] at hc
  obtain ⟨e, he⟩ := hc
  exact ⟨e, by rw [Session.step, he]⟩

/-- A context changes neither the level nor the handlers. -/
theorem configured_act {op : Context → State → Context × State}
    (hop : ∀ c s, (op c s).2.level = s.level ∧ (op c s).2.handlers = s.handlers) (slot : Text)
    (h : Configured σ.state last) : Configured (σ.act slot op).state last := by
  rw [Session.act]
  cases σ.contexts.get? slot with
  | none => exact h
  | some c =>
    obtain ⟨hlevel, hhandlers⟩ := hop c σ.state
    cases last with
    | none => exact ⟨hlevel.trans h.1, hhandlers.trans h.2⟩
    | some setting => exact ⟨hlevel.trans h.1, hhandlers.trans h.2⟩

theorem level_handlers_new (s : State) (id : Option Text) :
    (Context.new s id).2.level = s.level ∧ (Context.new s id).2.handlers = s.handlers := by
  rw [Context.new]
  split
  · exact ⟨rfl, rfl⟩
  · exact ⟨rfl, rfl⟩

theorem level_handlers_exit (c : Context) (s : State) :
    (c.exit s).2.level = s.level ∧ (c.exit s).2.handlers = s.handlers := by
  rw [Context.exit]
  split
  · exact ⟨rfl, rfl⟩
  · exact ⟨rfl, rfl⟩

/-- What a step leaves is what it sets, or what was set before. -/
theorem configured_step (h : Configured σ.state last) (st : Step) :
    Configured (σ.step st).1.state (st.setting?.or last) := by
  cases st with
  | configure level layout =>
    have hc := configure_eq σ.state level layout
    rw [Step.setting?, Session.step]
    cases hl : Level.names.lookup level.toUpper with
    | none =>
      rw [hl] at hc
      obtain ⟨e, he⟩ := hc
      rw [he]
      exact h
    | some l =>
      rw [hl] at hc
      rw [hc, set_eq]
      exact ⟨rfl, rfl⟩
  | log clock r => exact h
  | make slot id =>
    obtain ⟨hlevel, hhandlers⟩ := level_handlers_new σ.state id
    cases last with
    | none => exact ⟨hlevel.trans h.1, hhandlers.trans h.2⟩
    | some setting => exact ⟨hlevel.trans h.1, hhandlers.trans h.2⟩
  | enter slot => exact configured_act (fun c s => ⟨rfl, rfl⟩) slot h
  | exit slot => exact configured_act level_handlers_exit slot h

theorem configured_run (h : Configured σ.state last) (steps : List Step) :
    Configured (σ.run steps).state ((lastSetting steps).or last) := by
  induction steps generalizing σ last with
  | nil => exact h
  | cons st rest ih =>
    rw [lastSetting_cons, Option.or_assoc]
    exact ih (configured_step h st)

theorem Identified.act (h : Identified σ) (op : Context → State → Context × State)
    (hop : ∀ c s, c.id ≠ [] ∧ c.replaced ≠ some (some []) → s.runId ≠ some [] →
      ((op c s).1.id ≠ [] ∧ (op c s).1.replaced ≠ some (some [])) ∧ (op c s).2.runId ≠ some [])
    (slot : Text) : Identified (σ.act slot op) := by
  rw [Session.act]
  cases hc : σ.contexts.get? slot with
  | none => exact h
  | some c =>
    obtain ⟨hcontext, hcurrent⟩ := hop c σ.state (h.contexts slot c hc) h.current
    refine ⟨hcurrent, fun slot' c' hc' => ?_⟩
    rw [Assoc.get?_put] at hc'
    split at hc'
    · obtain rfl := Option.some.inj hc'
      exact hcontext
    · exact h.contexts slot' c' hc'

theorem runIdOf_ne_nil (n : Nat) : runIdOf n ≠ [] := by
  intro h
  exact absurd (List.append_eq_nil_iff.mp h).1 (by decide)

/-- A run id that is given is kept unless it is empty, and one that is made is not. -/
theorem Identified.make (h : Identified σ) (slot : Text) (id : Option Text) :
    Identified (σ.step (.make slot id)).1 := by
  have hnew : ((Context.new σ.state id).1.id ≠ [] ∧
      (Context.new σ.state id).1.replaced ≠ some (some [])) ∧
        (Context.new σ.state id).2.runId = σ.state.runId := by
    rw [Context.new]
    split
    · next id' hid =>
      have hne : id' ≠ [] := by simpa using (Option.filter_eq_some_iff.mp hid).2
      exact ⟨⟨hne, by simp⟩, rfl⟩
    · exact ⟨⟨runIdOf_ne_nil _, by simp⟩, rfl⟩
  refine ⟨?_, fun slot' c hc => ?_⟩
  · rw [Session.step, hnew.2]
    exact h.current
  · simp only [Session.step, Assoc.get?_put] at hc
    split at hc
    · obtain rfl := Option.some.inj hc
      exact hnew.1
    · exact h.contexts slot' c hc

theorem Identified.step (h : Identified σ) (st : Step) : Identified (σ.step st).1 := by
  cases st with
  | configure level layout =>
    have hc := configure_eq σ.state level layout
    rw [Session.step]
    cases hl : Level.names.lookup level.toUpper with
    | none =>
      rw [hl] at hc
      obtain ⟨e, he⟩ := hc
      rw [he]
      exact h
    | some l =>
      rw [hl] at hc
      rw [hc, set_eq]
      exact ⟨h.current, h.contexts⟩
  | log clock r => exact h
  | make slot id => exact h.make slot id
  | enter slot =>
    refine h.act Context.enter (fun c s hc hs => ⟨⟨hc.1, ?_⟩, ?_⟩) slot
    · exact fun he => hs (Option.some.inj he)
    · exact fun he => hc.1 (Option.some.inj he)
  | exit slot =>
    refine h.act Context.exit (fun c s hc hs => ?_) slot
    rw [Context.exit]
    cases hr : c.replaced with
    | none => exact ⟨⟨hc.1, by simp [hr]⟩, hs⟩
    | some old => exact ⟨⟨hc.1, by simp⟩, fun he => hc.2 (hr.trans (congrArg some he))⟩

theorem Identified.run (h : Identified σ) (steps : List Step) : Identified (σ.run steps) := by
  induction steps generalizing σ with
  | nil => exact h
  | cons st rest ih => exact ih (h.step st)

/-- A record as a logger hands it on. -/
def Record.named (r : Record) : Record := { r with logger := State.loggerName r.logger }

/-- A record below the level that is set is not looked at. -/
theorem log_below {l : Level} {layout : Layout} (h : Configured s (some (l, layout))) (clock : Clock)
    {r : Record} (hl : r.level < l) : s.log clock r = .ok [] := by
  have henabled : s.enabled r.level = false := by
    rw [State.enabled, h.1, decide_eq_false (Int.not_le.mpr hl), Bool.and_false]
  rw [State.log, henabled]
  rfl

/-- With one handler a record is rendered once, unless its level has too many digits. -/
theorem log_eq {l : Level} {layout : Layout} (h : Configured s (some (l, layout))) (clock : Clock)
    {r : Record} (hpos : 0 < r.level) (hl : l ≤ r.level)
    (hf : ∀ key ∈ r.extras.keys, key ∉ forbidden) :
    s.log clock r = if Json.isShort r.level then .ok [r.named.render layout clock s.runId]
      else .error .longLevel := by
  have hfind : r.extras.keys.find? (fun key => decide (key ∈ forbidden)) = none := by
    rw [List.find?_eq_none]
    intro key hk
    simpa using hf key hk
  have henabled : s.enabled r.level = true := by
    rw [State.enabled, h.1, decide_eq_true hpos, decide_eq_true hl]
    rfl
  have hemit : s.emit clock r.named = [r.named.render layout clock s.runId] := by
    rw [State.emit, h.2]
    rfl
  rw [State.log, if_pos henabled, hfind, ← hemit, Record.named]

theorem Record.Renderable.named {r : Record} (h : r.Renderable) : r.named.Renderable :=
  ⟨h.level, h.message, h.extras⟩

/-- A record with a line is written as that line. -/
theorem log_renderable {l : Level} {layout : Layout} (h : Configured s (some (l, layout)))
    (clock : Clock) {r : Record} (hpos : 0 < r.level) (hl : l ≤ r.level) (hr : r.Renderable)
    (hf : ∀ key ∈ r.extras.keys, key ∉ forbidden) :
    s.log clock r = .ok [.ok (r.named.line layout clock s.runId)] := by
  have hattributes : ∀ key ∈ r.named.extras.keys, key ∉ attributes :=
    fun key hk => not_mem_attributes (hf key hk)
  rw [log_eq h clock hpos hl hf, if_pos hr.level, hr.named.render_eq layout clock hattributes]

/-- A record without a line is refused, or its handler has no line for it. -/
theorem log_not_renderable {l : Level} {layout : Layout} (h : Configured s (some (l, layout)))
    (clock : Clock) {r : Record} (hpos : 0 < r.level) (hl : l ≤ r.level) (hn : r.extras.keys.Nodup)
    (hr : ¬r.Renderable) (hf : ∀ key ∈ r.extras.keys, key ∉ forbidden) :
    s.log clock r = .error .longLevel ∨ ∃ f, s.log clock r = .ok [.error f] := by
  rw [log_eq h clock hpos hl hf]
  by_cases hlevel : Json.isShort r.level = true
  · rw [if_pos hlevel]
    cases hrender : r.named.render layout clock s.runId with
    | error f => exact .inr ⟨f, rfl⟩
    | ok t =>
      have hnamed : r.named.Renderable := Record.renderable_of_render hn hrender
      exact absurd ⟨hlevel, hnamed.message, hnamed.extras⟩ hr
  · exact .inl (if_neg hlevel)

end

/-- Whatever steps a program takes, it has one handler at most, and one once a configuration had a
level with a name. A configuration without one is refused and changes nothing. A record is then
written once, in the layout that was set last and with the current run id, if its level is not below
the one that was set last and there is a line for it. Otherwise it is not written. -/
theorem run_session (steps : List Step) :
    (Session.start.run steps).state.handlers.length =
        (if (lastSetting steps).isSome then 1 else 0) ∧
    (∀ level layout, Level.names.lookup level.toUpper = none →
      ∃ e, (Session.start.run steps).step (.configure level layout) =
        (Session.start.run steps, .error (.unknownLevel e))) ∧
    ∀ l layout, lastSetting steps = some (l, layout) → ∀ clock r, 0 < r.level →
      (∀ key ∈ r.extras.keys, key ∉ forbidden ∧ key ≠ "run_id") →
      (r.level < l → (Session.start.run steps).step (.log clock r) =
        (Session.start.run steps, .ok [])) ∧
      (l ≤ r.level → r.Renderable →
        ∃ line, Shows layout clock (Session.start.run steps).state.runId r.named line ∧
          (Session.start.run steps).step (.log clock r) =
            (Session.start.run steps, .ok [.ok line])) ∧
      (l ≤ r.level → ¬r.Renderable → r.extras.keys.Nodup →
        (Session.start.run steps).step (.log clock r) =
            (Session.start.run steps, .error .longLevel) ∨
          ∃ f, (Session.start.run steps).step (.log clock r) =
            (Session.start.run steps, .ok [.error f])) := by
  have hstart : Configured Session.start.state none := ⟨rfl, rfl⟩
  have hconfigured : Configured (Session.start.run steps).state (lastSetting steps) := by
    have h := configured_run hstart steps
    rwa [Option.or_none] at h
  have hidentified : Identified (Session.start.run steps) := by
    refine Identified.run ⟨by simp [Session.start, State.start], ?_⟩ steps
    intro slot c hc
    cases hc
  refine ⟨hconfigured.length_handlers, fun level layout h => step_configure_refused layout h, ?_⟩
  intro l layout hlast clock r hpos hf
  have hforbidden : ∀ key ∈ r.extras.keys, key ∉ forbidden := fun key hk => (hf key hk).1
  rw [hlast] at hconfigured
  refine ⟨fun hl => ?below, fun hl hr => ?written, fun hl hr hn => ?unwritten⟩
  case below => rw [Session.step, log_below hconfigured clock hl]
  case written =>
    have hlog := log_renderable hconfigured clock hpos hl hr hforbidden
    exact ⟨_, Record.shows_line layout clock hidentified.current hf, by rw [Session.step, hlog]⟩
  case unwritten =>
    simp only [Session.step, Prod.mk.injEq, true_and]
    exact log_not_renderable hconfigured clock hpos hl hn hr hforbidden

/-- Two contexts, one within the other and left again, and a configuration that is refused. -/
def nestedSteps : List Step :=
  [.configure "info" .human, .make "a" (some "0123456789abcdef"), .enter "a", .make "b" none,
    .enter "b", .configure "loud" .json, .exit "b"]

def greeting : Record := ⟨"main", Level.info, "hello", none, [("n", .int 1)]⟩

def someClock : Clock := ⟨⟨2024, 1, 1, 0, 0, 0, 0⟩, ⟨2024, 1, 1, 0, 0, 0, 0⟩⟩

/-- A further field stands where a record is asked for its message. -/
def muteRecord : Record := { greeting with extras := [(question, .str "x")] }

theorem not_renderable_muteRecord : ¬muteRecord.Renderable := fun h => h.message (.head _)

theorem run_session_nested :
    lastSetting nestedSteps = some (Level.info, .human) ∧
    (Session.start.run nestedSteps).state.runId = some "0123456789abcdef" ∧
    0 < greeting.level ∧ (∀ key ∈ greeting.extras.keys, key ∉ forbidden ∧ key ≠ "run_id") ∧
    greeting.Renderable ∧ ¬muteRecord.Renderable ∧
    Level.names.lookup (Text.toUpper "loud") = none ∧
    (∃ line, Shows .human someClock (some "0123456789abcdef") greeting.named line ∧
      (Session.start.run nestedSteps).step (.log someClock greeting) =
        (Session.start.run nestedSteps, .ok [.ok line])) ∧
    (Session.start.run nestedSteps).step (.log someClock { greeting with level := Level.debug }) =
      (Session.start.run nestedSteps, .ok []) ∧
    ∃ f, (Session.start.run nestedSteps).step (.log someClock muteRecord) =
      (Session.start.run nestedSteps, .ok [.error f]) := by
  have hlast : lastSetting nestedSteps = some (Level.info, .human) := by rfl
  have hid : (Session.start.run nestedSteps).state.runId = some "0123456789abcdef" := by rfl
  have hf : ∀ key ∈ greeting.extras.keys, key ∉ forbidden ∧ key ≠ "run_id" := by decide
  have hmute : ∀ key ∈ muteRecord.extras.keys, key ∉ forbidden ∧ key ≠ "run_id" := by decide
  have hrenderable : greeting.Renderable := ⟨by decide, by decide, by decide⟩
  obtain ⟨-, -, hlog⟩ := run_session nestedSteps
  obtain ⟨-, hwritten, -⟩ := hlog _ _ hlast someClock greeting (by decide) hf
  obtain ⟨line, hshows, hstep⟩ := hwritten (by decide) hrenderable
  obtain ⟨hbelow, -, -⟩ := hlog _ _ hlast someClock { greeting with level := Level.debug }
    (by decide) hf
  obtain ⟨-, -, hunwritten⟩ := hlog _ _ hlast someClock muteRecord (by decide) hmute
  rw [hid] at hshows
  refine ⟨hlast, hid, by decide, hf, hrenderable, not_renderable_muteRecord, by decide,
    ⟨line, hshows, hstep⟩, hbelow (by decide), ?_⟩
  rcases hunwritten (by decide) not_renderable_muteRecord (by decide) with hrefused | hfault
  · cases congrArg Prod.snd hrefused
  · exact hfault

/-- An integer has too many digits. -/
def longRecord : Record := { greeting with extras := [("n", .int Json.leastLong)] }

/-- The level has too many digits. -/
def steepRecord : Record := { greeting with level := Json.leastLong }

theorem not_renderable_longRecord : ¬longRecord.Renderable := by
  intro h
  have hshown : (("n", .int Json.leastLong) : Text × Json) ∈ longRecord.shown :=
    List.mem_filter.mpr ⟨List.mem_singleton_self _, by decide⟩
  have hvalue : (Json.int Json.leastLong).isWritable = true :=
    h.extras ("n", .int Json.leastLong) hshown
  rw [Json.isWritable, Json.isShort_leastLong] at hvalue
  exact Bool.false_ne_true hvalue

theorem level_steepRecord : steepRecord.level = Json.leastLong := by rw [steepRecord]

theorem not_renderable_steepRecord : ¬steepRecord.Renderable := by
  intro h
  have hlevel := h.level
  rw [level_steepRecord, Json.isShort_leastLong] at hlevel
  exact Bool.false_ne_true hlevel

def jsonSteps : List Step := [.configure "debug" .json]

/-- Not every record whose level is high enough is written. -/
theorem step_log_unwritten :
    lastSetting jsonSteps = some (Level.debug, .json) ∧
    ∀ r ∈ [longRecord, muteRecord, steepRecord], 0 < r.level ∧ Level.debug ≤ r.level ∧
      (∀ key ∈ r.extras.keys, key ∉ forbidden ∧ key ≠ "run_id") ∧
      ∀ line, (Session.start.run jsonSteps).step (.log someClock r) ≠
        (Session.start.run jsonSteps, .ok [.ok line]) := by
  have hconfigured : Configured (Session.start.run jsonSteps).state (some (Level.debug, .json)) :=
    ⟨by rfl, by rfl⟩
  refine ⟨by rfl, fun r hr => ?_⟩
  have hr : Level.debug ≤ r.level ∧ (∀ key ∈ r.extras.keys, key ∉ forbidden ∧ key ≠ "run_id") ∧
      r.extras.keys.Nodup ∧ ¬r.Renderable := by
    simp only [List.mem_cons, List.not_mem_nil, or_false] at hr
    rcases hr with rfl | rfl | rfl
    · exact ⟨by decide, by decide, by decide, not_renderable_longRecord⟩
    · exact ⟨by decide, by decide, by decide, not_renderable_muteRecord⟩
    · refine ⟨?_, by decide, by decide, not_renderable_steepRecord⟩
      rw [level_steepRecord]
      exact Json.ten_le_leastLong
  obtain ⟨hl, hf, hn, hrenderable⟩ := hr
  have hpos : 0 < r.level := Int.lt_of_lt_of_le (by decide) hl
  refine ⟨hpos, hl, hf, fun line h => ?_⟩
  have hlog : (Session.start.run jsonSteps).state.log someClock r = .ok [.ok line] :=
    congrArg Prod.snd h
  rcases log_not_renderable hconfigured someClock hpos hl hn hrenderable
    fun key hk => (hf key hk).1 with he | ⟨f, he⟩
  · cases he.symm.trans hlog
  · cases he.symm.trans hlog

end Allowlist.Log
