import Allowlist.Policy.Basic
import Allowlist.Proofs.Settings.Layers
import Allowlist.Proofs.Yaml.Front

/-!
# A policy is no settings file

A policy begins with a brace and its first field, so as a settings file it is a mapping with a key that no
setting has, if it can be read at all.
-/
namespace Allowlist

namespace Yaml

open Scanner (Front recordFront)

namespace Node

namespace Read

variable {α β : Type} {x : Read α} {f : α → Read β} {r r' : Reader} {a a' : α} {b : β}

theorem run_bind_eq_ok : (x >>= f).run r = .ok (b, r') ↔
    ∃ a r₁, x.run r = .ok (a, r₁) ∧ (f a).run r₁ = .ok (b, r') := by
  have hbind : (x >>= f).run r = x.run r >>= fun p => (f p.1).run p.2 := rfl
  rw [hbind, bind_eq_ok, Prod.exists]

theorem run_map_eq_ok {f : α → β} : (f <$> x).run r = .ok (b, r') ↔
    ∃ a, x.run r = .ok (a, r') ∧ f a = b := by
  have hmap : (f <$> x).run r = x.run r >>= fun p => .ok (f p.1, p.2) := rfl
  simp [hmap, bind_eq_ok]

theorem eq_of_run_pure (h : (pure a : Read α).run r = .ok (a', r')) : a = a' :=
  (Prod.mk.inj (Except.ok.inj h)).1

end Read

open Read

section

variable {fuel : Nat} {tokens : List Token} {ending : Fault} {anchors : Assoc Name Node}
  {handles : Assoc Name Name} {key : Text} {n : Node} {pairs : List (Node × Node)} {r : Reader}

theorem read_scalar (block entries : Bool) :
    (read block entries (fuel + 1)).run ⟨.scalar false key :: tokens, ending, anchors, handles⟩ =
      .ok (.scalar .form key, ⟨tokens, ending, anchors, handles⟩) := by
  rw [read]
  rfl

theorem read_recordStart (block entries : Bool) :
    (read block entries (fuel + 1)).run ⟨.recordStart :: tokens, ending, anchors, handles⟩ =
      (.mapping .form <$> readRecord true fuel).run ⟨tokens, ending, anchors, handles⟩ := by
  rw [read]
  rfl

theorem read_mappingStart (entries : Bool) :
    (read true entries (fuel + 1)).run ⟨.mappingStart :: tokens, ending, anchors, handles⟩ =
      (.mapping .form <$> readPairs fuel).run ⟨tokens, ending, anchors, handles⟩ := by
  rw [read]
  rfl

theorem read_key (entries : Bool) :
    (read true entries (fuel + 1)).run ⟨.key :: tokens, ending, anchors, handles⟩ =
      .error .malformed := by
  rw [read]
  rfl

theorem readRecord_key :
    (readRecord true (fuel + 1)).run ⟨.key :: tokens, ending, anchors, handles⟩ =
      (do
        let k ← readUnless [.value, .comma, .recordEnd] false false fuel
        let v ← readValue [.comma, .recordEnd] false fuel
        return (k, v) :: (← readRecord false fuel)).run ⟨tokens, ending, anchors, handles⟩ := by
  rw [readRecord]
  rfl

theorem readPairs_key :
    (readPairs (fuel + 1)).run ⟨.key :: tokens, ending, anchors, handles⟩ =
      (do
        let k ← readUnless [.key, .value, .blockEnd] true true fuel
        let v ← readValue [.key, .value, .blockEnd] true fuel
        return (k, v) :: (← readPairs fuel)).run ⟨tokens, ending, anchors, handles⟩ := by
  rw [readPairs]
  rfl

/-- The node that is read is not absent. -/
theorem read_of_readUnless {t : Token} {ends : List Token} {block entries : Bool}
    (ht : t ∉ ends)
    (h : (readUnless ends block entries fuel).run ⟨t :: tokens, ending, anchors, handles⟩ =
      .ok (n, r)) :
    ∃ fuel', (read block entries fuel').run ⟨t :: tokens, ending, anchors, handles⟩ = .ok (n, r) := by
  cases fuel with
  | zero => cases h
  | succ fuel =>
    rw [readUnless] at h
    obtain ⟨found, r₁, hfound, h⟩ := run_bind_eq_ok.mp h
    obtain ⟨rfl, rfl⟩ := Prod.mk.inj (Except.ok.inj hfound)
    have hends : ends.contains t = false := by simpa using ht
    rw [hends] at h
    exact ⟨fuel, h⟩

theorem readRecord_front
    (h : (readRecord true fuel).run ⟨.key :: .scalar false key :: tokens, ending, anchors, handles⟩ =
      .ok (pairs, r)) : ∃ v rest, pairs = (.scalar .form key, v) :: rest := by
  cases fuel with
  | zero => cases h
  | succ fuel =>
    rw [readRecord_key] at h
    obtain ⟨k, r₁, hk, h⟩ := run_bind_eq_ok.mp h
    obtain ⟨v, r₂, -, h⟩ := run_bind_eq_ok.mp h
    obtain ⟨rest, r₃, -, h⟩ := run_bind_eq_ok.mp h
    obtain rfl := eq_of_run_pure h
    obtain ⟨fuel', hread⟩ := read_of_readUnless (by simp) hk
    cases fuel' with
    | zero => cases hread
    | succ fuel' =>
      rw [read_scalar] at hread
      obtain ⟨rfl, -⟩ := Prod.mk.inj (Except.ok.inj hread)
      exact ⟨v, rest, rfl⟩

/-- A mapping whose first key is a text in quotes, or a mapping again. -/
inductive OpensWith (key : Text) : Node → Prop
  | text (v : Node) (rest : List (Node × Node)) :
    OpensWith key (.mapping .form ((.scalar .form key, v) :: rest))
  | mapping (inner : List (Node × Node)) (v : Node) (rest : List (Node × Node)) :
    OpensWith key (.mapping .form ((.mapping .form inner, v) :: rest))

theorem read_recordFront {block entries : Bool}
    (h : (read block entries fuel).run ⟨recordFront key ++ tokens, ending, anchors, handles⟩ =
      .ok (n, r)) : ∃ v rest, n = .mapping .form ((.scalar .form key, v) :: rest) := by
  cases fuel with
  | zero => cases h
  | succ fuel =>
    obtain ⟨pairs, hp, rfl⟩ := run_map_eq_ok.mp ((read_recordStart block entries).symm.trans h)
    obtain ⟨v, rest, rfl⟩ := readRecord_front hp
    exact ⟨v, rest, rfl⟩

theorem readPairs_front (h : (readPairs fuel).run
      ⟨.key :: (recordFront key ++ tokens), ending, anchors, handles⟩ = .ok (pairs, r)) :
    ∃ inner v rest, pairs = (.mapping .form inner, v) :: rest := by
  cases fuel with
  | zero => cases h
  | succ fuel =>
    rw [readPairs_key] at h
    obtain ⟨k, r₁, hk, h⟩ := run_bind_eq_ok.mp h
    obtain ⟨v, r₂, -, h⟩ := run_bind_eq_ok.mp h
    obtain ⟨rest, r₃, -, h⟩ := run_bind_eq_ok.mp h
    obtain rfl := eq_of_run_pure h
    obtain ⟨fuel', hread⟩ := read_of_readUnless (by simp) hk
    obtain ⟨w, inner, rfl⟩ := read_recordFront hread
    exact ⟨_, v, rest, rfl⟩

theorem opensWith_of_read {front : List Token} (hf : Front key front)
    (h : (read true false fuel).run ⟨front ++ tokens, ending, anchors, handles⟩ = .ok (n, r)) :
    OpensWith key n := by
  cases hf with
  | record =>
    obtain ⟨v, rest, rfl⟩ := read_recordFront h
    exact .text v rest
  | key =>
    cases fuel with
    | zero => cases h
    | succ fuel => cases (read_key false).symm.trans h
  | mapping =>
    cases fuel with
    | zero => cases h
    | succ fuel =>
      obtain ⟨pairs, hp, rfl⟩ := run_map_eq_ok.mp ((read_mappingStart false).symm.trans h)
      obtain ⟨inner, v, rest, rfl⟩ := readPairs_front hp
      exact .mapping inner v rest

theorem readOnly_of_front {front : List Token} (hf : Front key front) :
    (readOnly fuel).run ⟨front ++ tokens, ending, anchors, handles⟩ =
      (do
        let node ← read true false fuel
        readEnd fuel
        return some node).run ⟨front ++ tokens, ending, anchors, handles⟩ := by
  cases hf <;> rfl

theorem opensWith_of_readOnly {front : List Token} {o : Option Node} (hf : Front key front)
    (h : (readOnly fuel).run ⟨front ++ tokens, ending, anchors, handles⟩ = .ok (o, r)) :
    ∃ n, o = some n ∧ OpensWith key n := by
  rw [readOnly_of_front hf] at h
  obtain ⟨n, r₁, hn, h⟩ := run_bind_eq_ok.mp h
  obtain ⟨-, r₂, -, h⟩ := run_bind_eq_ok.mp h
  obtain rfl := eq_of_run_pure h
  exact ⟨n, rfl, opensWith_of_read hf hn⟩

/-- The node of a file that begins with a brace and a key in quotes. -/
theorem opensWith_of_ofSource {bs : Utf8.Bytes} {o : Option Node}
    (h : ofSource (.ofBytes (Utf8.encode Scanner.opening ++ bs)) = .ok o) :
    ∃ n, o = some n ∧ OpensWith "schema" n := by
  have hscan := Token.scan_ofBytes bs
  rw [ofSource] at h
  generalize Token.scan (.ofBytes (Utf8.encode Scanner.opening ++ bs)) = scanned at h hscan
  obtain ⟨tokens, fault⟩ := scanned
  obtain ⟨⟨o', r⟩, ho, rfl⟩ := map_eq_ok.mp h
  rcases hscan with rfl | ⟨front, hf, tokens, rfl⟩
  · cases ho
  · exact opensWith_of_readOnly hf ho

end

/-! ## The mapping -/

section

variable {key : Text} {k v : Node} {n : Node} {typing : Typing} {rest ps : List (Node × Node)}
  {q : Value × Value} {qs : List (Value × Value)}

theorem mem_of_mergedItem (hk : k.isMerge = false)
    (h : mergedItem (.mapping typing ((k, v) :: rest)) = .ok ps) : (k, v) ∈ ps := by
  rw [mergedItem] at h
  obtain ⟨⟨front, own⟩, hs, h⟩ := bind_eq_ok.mp h
  obtain rfl := Except.ok.inj h
  rw [splitPairs, hk] at hs
  obtain ⟨⟨front', own'⟩, -, hs⟩ := bind_eq_ok.mp hs
  obtain ⟨rfl, rfl⟩ := Prod.mk.inj (Except.ok.inj hs)
  exact List.mem_append_right _ List.mem_cons_self

theorem exists_mem_of_mapM {p : Node × Node} (hp : p ∈ ps) (h : ps.mapM pairValue = .ok qs) :
    ∃ q ∈ qs, pairValue p = .ok q := by
  have hmem : pairValue p ∈ qs.map .ok := mapM_eq_ok.mp h ▸ List.mem_map_of_mem hp
  obtain ⟨q, hq, he⟩ := List.mem_map.mp hmem
  exact ⟨q, hq, he.symm⟩

theorem pairValue_text (h : pairValue (.scalar .form key, v) = .ok q) : q.1 = .str key := by
  have hvalue : pairValue (.scalar .form key, v) = v.value >>= fun w => .ok (.str key, w) := rfl
  rw [hvalue] at h
  obtain ⟨w, -, h⟩ := bind_eq_ok.mp h
  rw [← Except.ok.inj h]

/-- A mapping is no key. -/
theorem pairValue_mapping (inner : List (Node × Node)) (v : Node) :
    pairValue (.mapping .form inner, v) = .error .malformed := rfl

/-- Of a mapping that opens with a text the values include one whose key is the text. -/
theorem OpensWith.exists_mem (hn : OpensWith key n) (hm : n.mergedItem = .ok ps)
    (h : ps.mapM pairValue = .ok qs) : ∃ q ∈ qs, q.1 = .str key := by
  cases hn with
  | text v rest =>
    obtain ⟨q, hq, he⟩ := exists_mem_of_mapM (mem_of_mergedItem rfl hm) h
    exact ⟨q, hq, pairValue_text he⟩
  | mapping inner v rest =>
    obtain ⟨q, -, he⟩ := exists_mem_of_mapM (mem_of_mergedItem rfl hm) h
    rw [pairValue_mapping] at he
    cases he

end

end Node

namespace Value

variable {m : List (Value × Value)} {t : Text}

theorem exists_mem_put_str (m : List (Value × Value)) (t : Text) (v : Value) :
    ∃ p ∈ put m (.str t) v, p.1 = .str t := by
  induction m with
  | nil => exact ⟨_, List.mem_cons_self, rfl⟩
  | cons p rest ih =>
    obtain ⟨k, u⟩ := p
    rw [put]
    split
    · next hs => exact ⟨_, List.mem_cons_self, sameKey_str_iff.mp hs⟩
    · obtain ⟨q, hq, he⟩ := ih
      exact ⟨q, List.mem_cons_of_mem _ hq, he⟩

theorem exists_mem_put_of_mem (h : ∃ p ∈ m, p.1 = .str t) (k v : Value) :
    ∃ p ∈ put m k v, p.1 = .str t := by
  induction m with
  | nil =>
    obtain ⟨p, hp, -⟩ := h
    cases hp
  | cons p rest ih =>
    obtain ⟨k', u⟩ := p
    rw [put]
    obtain ⟨q, hq, he⟩ := h
    split
    · rcases List.mem_cons.mp hq with rfl | hq
      · exact ⟨_, List.mem_cons_self, he⟩
      · exact ⟨q, List.mem_cons_of_mem _ hq, he⟩
    · rcases List.mem_cons.mp hq with rfl | hq
      · exact ⟨_, List.mem_cons_self, he⟩
      · obtain ⟨q, hq, he⟩ := ih ⟨q, hq, he⟩
        exact ⟨q, List.mem_cons_of_mem _ hq, he⟩

/-- A key that is put stays, whatever is put behind it. -/
theorem exists_mem_foldl_put {ps : List (Value × Value)}
    (h : (∃ p ∈ m, p.1 = .str t) ∨ ∃ p ∈ ps, p.1 = .str t) :
    ∃ p ∈ ps.foldl (fun m p => put m p.1 p.2) m, p.1 = .str t := by
  induction ps generalizing m with
  | nil => simpa using h
  | cons q ps ih =>
    refine ih ?_
    rcases h with h | ⟨p, hp, he⟩
    · exact .inl (exists_mem_put_of_mem h q.1 q.2)
    · rcases List.mem_cons.mp hp with rfl | hp
      · exact .inl (he ▸ exists_mem_put_str m t p.2)
      · exact .inr ⟨p, hp, he⟩

end Value

namespace Document

variable {key : Text} {depth : Nat} {n : Node} {d : Document}

theorem ofNode_mapping (depth : Nat) (pairs : List (Node × Node)) :
    ofNode depth (.mapping .form pairs) = (do
      Node.checkLevels depth [.mapping .form pairs]
      let qs ← (← (Node.mapping .form pairs).mergedItem).mapM Node.pairValue
      .ok (.mapping (qs.foldl (fun m q => Value.put m q.1 q.2) []))) := rfl

theorem ofNode_of_opensWith (hn : Node.OpensWith key n) (h : ofNode depth n = .ok d) :
    ∃ m, d = .mapping m ∧ ∃ p ∈ m, p.1 = .str key := by
  obtain ⟨pairs, rfl⟩ : ∃ pairs, n = .mapping .form pairs := by
    cases hn <;> exact ⟨_, rfl⟩
  rw [ofNode_mapping] at h
  obtain ⟨-, -, h⟩ := bind_eq_ok.mp h
  obtain ⟨ps, hps, h⟩ := bind_eq_ok.mp h
  obtain ⟨qs, hqs, h⟩ := bind_eq_ok.mp h
  exact ⟨_, (Except.ok.inj h).symm, Value.exists_mem_foldl_put (.inr (hn.exists_mem hps hqs))⟩

/-- What begins with a brace and a key in quotes is a mapping with that key, if anything. -/
theorem read_of_opening {bs : Utf8.Bytes} (h : read (Utf8.encode Scanner.opening ++ bs) = .ok d) :
    ∃ m, d = .mapping m ∧ ∃ p ∈ m, p.1 = .str "schema" := by
  obtain ⟨o, ho, h⟩ := bind_eq_ok.mp h
  obtain ⟨n, rfl, hn⟩ := Node.opensWith_of_ofSource ho
  exact ofNode_of_opensWith hn h

end Document

end Yaml

namespace Settings

variable {fs : Files} {config : Option Text} {env : Environment} {name : Text} {s : Settings}

theorem not_named_of_schema {m : Mapping} (h : ∃ p ∈ m, p.1 = .str "schema") : ¬Named m := by
  intro hm
  obtain ⟨p, hp, hschema⟩ := h
  obtain ⟨f, hf⟩ := hm p hp
  have hname : ("schema" : Text) = f.name := Yaml.Value.str.inj (hschema.symm.trans hf)
  cases f <;> exact absurd hname (by decide)

theorem exists_render_eq (p : Policy) :
    ∃ bs, p.render = Utf8.encode Yaml.Scanner.opening ++ bs := by
  obtain ⟨rest, hrest⟩ : Yaml.Scanner.opening <+: p.toJson.canonical := ⟨_, rfl⟩
  exact ⟨Utf8.encode rest, by rw [Policy.render, ← hrest, Utf8.encode_append]⟩

/-- No settings are loaded from a policy. -/
theorem load_render_ne_ok (p : Policy) (hn : fileOf config env = some name)
    (hr : fs.read (Path.ofText name) = .ok p.render) : load fs config env ≠ .ok s := by
  intro h
  obtain ⟨file, hm, hs⟩ := load_eq_ok_iff.mp h
  have hnamed : Named file := (resolve_eq_ok_iff.mp hs).1
  obtain ⟨bs, hbs⟩ := exists_render_eq p
  rw [mapping, hn] at hm
  simp only [readMapping, hr] at hm
  cases hd : Yaml.Document.read p.render with
  | error f => cases f <;> simp [hd] at hm
  | ok d =>
    obtain ⟨m, rfl, hschema⟩ := Yaml.Document.read_of_opening (hbs ▸ hd)
    simp only [hd] at hm
    obtain rfl := Except.ok.inj hm
    exact not_named_of_schema hschema hnamed

end Settings

end Allowlist
