import Allowlist.Proofs.Json.Line
import Allowlist.Proofs.Log.Session

/-!
# Lines for machines read back

The line that a record has in JSON is one line of visible ASCII, and what is read from it is the
record: what it says by itself in a fixed order, with the further fields put into it. So no text in
a record, be it the message, a name or a value, begins a record of its own or takes the place of
another field.
-/
namespace Allowlist.Log

/-- The fields of one map put into another: a key that is there keeps its place, the others follow
in their order, and the new values count. -/
structure Updates (own extras fields : Fields Json) : Prop where
  keys : fields.keys = own.keys ++ extras.keys.filter (· ∉ own.keys)
  values : ∀ key, fields.get? key = (extras.get? key).or (own.get? key)

namespace Record

/-- The texts that a record shows by itself. -/
def ownTexts (r : Record) (clock : Clock) (runId : Option Text) : Fields Text :=
  let always : Fields Text :=
    [("timestamp", .ofChars clock.universal.universal), ("level", Level.name r.level),
      ("logger", r.logger), ("message", r.message)]
  let id : Fields Text := (shownId runId).toList.map fun id => ("run_id", id)
  let exception : Fields Text := r.exception.toList.map fun e => ("exception", e)
  always ++ id ++ exception

def ownFields (r : Record) (clock : Clock) (runId : Option Text) : Fields Json :=
  (r.ownTexts clock runId).map fun p => (p.1, .str p.2)

/-- All texts of a record are joined, its level has not too many digits, and its further fields are a
map with storable values, under names that no attribute of a record has. -/
structure Plain (r : Record) (runId : Option Text) : Prop where
  level : Json.isShort r.level = true
  logger : r.logger.Joined
  message : r.message.Joined
  exception : ∀ e ∈ r.exception, e.Joined
  runId : ∀ id ∈ runId, id.Joined
  keys : r.extras.keys.Nodup
  names : ∀ key ∈ r.extras.keys, key ∉ hidden ∧ key ≠ question ∧ key.Joined
  values : ∀ p ∈ r.extras, p.2.Storable

variable {r : Record} {clock : Clock} {runId : Option Text}

theorem exists_chars_level (l : Level) : ∃ cs, Level.name l = .ofChars cs := by
  unfold Level.name
  split_ifs
  case neg => exact ⟨"Level ".toList ++ Digits.integer l, (Text.ofChars_append _ _).symm⟩
  all_goals exact ⟨_, rfl⟩

theorem joined_level (l : Level) : (Level.name l).Joined := by
  obtain ⟨cs, he⟩ := exists_chars_level l
  rw [he]
  exact Text.joined_ofChars cs

theorem shown_eq_extras (h : ∀ key ∈ r.extras.keys, key ∉ hidden) : r.shown = r.extras :=
  List.filter_eq_self.mpr fun p hp => by simpa using h p.1 (Assoc.mem_keys_of_mem hp)

/-- A record whose further fields have names of their own shows its own level and logger. -/
theorem base_eq_ownFields (h : ∀ key ∈ r.extras.keys, key ∉ hidden) :
    r.base clock runId = r.ownFields clock runId := by
  have hattributes : ∀ key ∈ r.extras.keys, key ∉ attributes := fun key hk ha =>
    h key hk (.tail _ (.tail _ ha))
  rw [base, ownFields, ownTexts, shownLevel_eq hattributes, shownLogger_eq hattributes]
  cases shownId runId <;> cases r.exception <;> rfl

theorem nodup_keys_ownFields : (r.ownFields clock runId).keys.Nodup := by
  rw [ownFields, Assoc.keys_map Json.str, ownTexts]
  cases shownId runId <;> cases r.exception <;>
    simp only [Option.toList_none, Option.toList_some, List.map_nil, List.map_cons,
      List.append_nil, Assoc.keys, List.map_append] <;> decide

namespace Plain

variable (h : r.Plain runId)
include h

theorem joined_ownTexts : ∀ p ∈ r.ownTexts clock runId, p.1.Joined ∧ p.2.Joined := by
  have hid : ∀ id ∈ shownId runId, id.Joined := fun id hi =>
    h.runId id (Option.filter_eq_some_iff.mp hi).1
  simp only [ownTexts, List.forall_mem_append, List.forall_mem_cons, List.forall_mem_map,
    Option.mem_toList]
  refine ⟨⟨⟨⟨by decide, Text.joined_ofChars _⟩, ⟨by decide, joined_level r.level⟩,
    ⟨by decide, h.logger⟩, ⟨by decide, h.message⟩, by simp⟩, ?_⟩, ?_⟩
  · exact fun id hi => ⟨by decide, hid id hi⟩
  · exact fun e he => ⟨by decide, h.exception e he⟩

theorem toJson_eq : r.toJson clock runId =
    .obj (r.extras.foldl (fun fs p => Assoc.put fs p.1 p.2) (r.ownFields clock runId)) := by
  have hnames : ∀ key ∈ r.extras.keys, key ∉ hidden := fun key hk => (h.names key hk).1
  rw [toJson, shown_eq_extras hnames, base_eq_ownFields hnames]

theorem storable_toJson : (r.toJson clock runId).Storable := by
  have hown : ∀ p ∈ r.ownFields clock runId, p.1.Joined ∧ p.2.Storable := by
    rw [ownFields, List.forall_mem_map]
    exact h.joined_ownTexts
  have hextras : ∀ p ∈ r.extras, p.1.Joined ∧ p.2.Storable := fun p hp =>
    ⟨(h.names p.1 (Assoc.mem_keys_of_mem hp)).2.2, h.values p hp⟩
  have hall := Assoc.forall_mem_foldl_put hextras hown
  rw [h.toJson_eq]
  refine Json.all_obj.mpr ⟨⟨Assoc.nodup_keys_foldl_put _ nodup_keys_ownFields, ?_⟩,
    fun p hp => (hall p hp).2⟩
  exact List.forall_mem_map.mpr fun p hp => (hall p hp).1

theorem render_eq : r.render .json clock runId = .ok (.ofChars (r.toJson clock runId).line) := by
  have hmessage : question ∉ r.extras.keys := fun hk => (h.names _ hk).2.1 rfl
  exact render_eq_ok_iff.mpr
    ⟨h.level, hmessage, Json.isWritable_of_storable h.storable_toJson, rfl⟩

end Plain

/-- A plain record has a line in JSON. It is visible ASCII, and what is read from it is the object of
what the record says by itself with its further fields put into it. -/
theorem read_render_json (clock : Clock) (h : r.Plain runId) :
    ∃ cs fields, r.render .json clock runId = .ok (.ofChars cs) ∧
      (∀ c ∈ cs, 0x20 ≤ c.toNat ∧ c.toNat ≤ 0x7E) ∧ Json.read cs = .ok (.obj fields) ∧
        Updates (r.ownFields clock runId) r.extras fields := by
  have hs : (r.toJson clock runId).Storable := h.storable_toJson
  refine ⟨(r.toJson clock runId).line, _, h.render_eq, ?_, ?_, ?_,
    Assoc.get?_foldl_put_of_nodup h.keys⟩
  · exact Json.visible_of_mem_line (Json.floatFree_of_storable hs)
  · rw [Json.read_line hs, h.toJson_eq]
  · rw [Assoc.keys_foldl_put h.keys]
    exact congrArg _ (List.filter_congr fun key _ => decide_eq_decide.mpr Iff.rfl)

/-- A message with a line break and the end of an object in it, and further fields of which one takes
the place of the run id. -/
def crookedRecord : Record where
  logger := "main"
  level := Level.info
  message := [.ofChar '\n', .ofChar '"', .ofChar '\x7d', ⟨0x1F600, by decide⟩, .firstHigh]
  exception := some "ValueError"
  extras := [("n", .arr [.int (-1), .null, .str [.firstLow]]), ("run_id", .str "other")]

theorem read_render_crookedRecord :
    crookedRecord.Plain (some "run-1") ∧
    ∃ cs, ∃ fields : Fields Json,
      crookedRecord.render .json someClock (some "run-1") = .ok (.ofChars cs) ∧
      Json.read cs = .ok (.obj fields) ∧
      fields.keys =
        (["timestamp", "level", "logger", "message", "run_id", "exception", "n"] : List Text) ∧
      fields.get? "message" = some (.str crookedRecord.message) ∧
      fields.get? "run_id" = some (.str "other") := by
  have h : crookedRecord.Plain (some "run-1") := by
    constructor <;> decide
  obtain ⟨cs, fields, hline, -, hread, hkeys, hvalues⟩ := read_render_json someClock h
  exact ⟨h, cs, fields, hline, hread, hkeys, hvalues _, hvalues _⟩

/-- A record with an integer of too many digits is plain otherwise, and has no line in JSON. -/
theorem render_longRecord : longRecord.logger.Joined ∧ longRecord.message.Joined ∧
    longRecord.exception = none ∧ Json.isShort longRecord.level = true ∧
    longRecord.extras.keys.Nodup ∧
    (∀ key ∈ longRecord.extras.keys, key ∉ hidden ∧ key ≠ question ∧ key.Joined) ∧
    (∀ p ∈ longRecord.extras, p.2.FloatFree) ∧
    longRecord.render .json someClock none = .error .longInteger := by
  have hshort : Json.isShort longRecord.level = true := by decide
  have hkeys : longRecord.extras.keys.Nodup := by decide
  have hmessage : question ∉ longRecord.extras.keys := by decide
  refine ⟨by decide, by decide, rfl, hshort, hkeys, by decide, ?_, ?_⟩
  · exact List.forall_mem_singleton.mpr trivial
  · have hvalues : ¬longRecord.isWritable .json someClock none = true := fun h =>
      not_renderable_longRecord ⟨hshort, hmessage, isWritable_of_mem_shown hkeys h⟩
    exact render_eq_longInteger hshort hmessage hvalues

end Record

end Allowlist.Log
