import Allowlist.Json.Reader
import Allowlist.Proofs.Assoc
import Allowlist.Proofs.Except
import Allowlist.Proofs.Json.Nested
import Allowlist.Proofs.Text.Joined

/-!
# What reading gives

Whatever the text was, a value that is read has joined strings and distinct keys at every depth:
pairs are joined as each string ends, and fields are put into a map as each object ends.
-/
namespace Allowlist.Json

def ReadableRoot : Json → Prop
  | .str t => t.Joined
  | .obj fields => (Assoc.keys fields).Nodup ∧ ∀ k ∈ Assoc.keys fields, k.Joined
  | _ => True

/-- Joined strings and distinct keys at any depth. -/
abbrev Readable (v : Json) : Prop := v.All ReadableRoot

theorem joined_of_readString {cs left : List Char} {t : Text} (h : readString cs = .ok (t, left)) :
    t.Joined := by
  rw [readString, bind_eq_ok] at h
  obtain ⟨⟨u, more⟩, _, he⟩ := h
  obtain ⟨rfl, -⟩ := Prod.mk.inj (Except.ok.inj he)
  exact Text.joined_joinPairs u

theorem readable_of_readNumber {cs left : List Char} {v : Json}
    (h : readNumber cs = .ok (v, left)) : v.Readable := by
  rw [readNumber] at h
  split at h
  · cases h
  · next parts rest _ =>
    rw [bind_eq_ok] at h
    obtain ⟨w, hw, he⟩ := h
    obtain ⟨rfl, -⟩ := Prod.mk.inj (Except.ok.inj he)
    rw [NumberParts.value] at hw
    split at hw
    · split at hw
      · cases hw
      · obtain rfl := Except.ok.inj hw
        trivial
    · obtain rfl := Except.ok.inj hw
      trivial

theorem readable_obj_ofPairs {ps : List (Text × Json)}
    (h : ∀ f ∈ ps, f.1.Joined ∧ f.2.Readable) : (Json.obj (Assoc.ofPairs ps)).Readable := by
  have hf := Assoc.forall_mem_ofPairs h
  refine all_obj.mpr ⟨⟨Assoc.nodup_keys_ofPairs ps, ?_⟩, fun f hm => (hf f hm).2⟩
  intro k hk
  obtain ⟨f, hm, rfl⟩ := List.mem_map.mp hk
  exact (hf f hm).1

/-- What the reader returns with a given amount of fuel. -/
structure ReadsReadable (fuel : Nat) : Prop where
  value : ∀ {cs left v}, readValue fuel cs = .ok (v, left) → v.Readable
  items : ∀ {cs left vs}, readItems fuel cs = .ok (vs, left) → ∀ v ∈ vs, v.Readable
  fields : ∀ {cs left ps}, readFields fuel cs = .ok (ps, left) →
    ∀ f ∈ ps, f.1.Joined ∧ f.2.Readable

theorem readable_of_readValue_succ {fuel : Nat} (ih : ReadsReadable fuel) {cs left : List Char}
    {v : Json} (h : readValue (fuel + 1) cs = .ok (v, left)) : v.Readable := by
  rw [readValue.eq_def] at h
  simp only at h
  split at h
  case h_1 rest =>
    obtain ⟨⟨t, more⟩, ht, he⟩ := bind_eq_ok.mp h
    obtain ⟨rfl, -⟩ := Prod.mk.inj (Except.ok.inj he)
    exact joined_of_readString ht
  case h_2 rest =>
    split at h
    · obtain ⟨rfl, -⟩ := Prod.mk.inj (Except.ok.inj h)
      exact all_obj.mpr ⟨⟨List.nodup_nil, by simp⟩, by simp⟩
    · obtain ⟨⟨ps, more⟩, hp, he⟩ := bind_eq_ok.mp h
      obtain ⟨rfl, -⟩ := Prod.mk.inj (Except.ok.inj he)
      exact readable_obj_ofPairs (ih.fields hp)
  case h_3 rest =>
    split at h
    · obtain ⟨rfl, -⟩ := Prod.mk.inj (Except.ok.inj h)
      exact all_arr.mpr ⟨trivial, by simp⟩
    · obtain ⟨⟨vs, more⟩, hv, he⟩ := bind_eq_ok.mp h
      obtain ⟨rfl, -⟩ := Prod.mk.inj (Except.ok.inj he)
      exact all_arr.mpr ⟨trivial, ih.items hv⟩
  case h_10 => exact readable_of_readNumber h
  all_goals
    obtain ⟨rfl, -⟩ := Prod.mk.inj (Except.ok.inj h)
    trivial

theorem readable_of_readItems_succ {fuel : Nat} (ih : ReadsReadable fuel) {cs left : List Char}
    {vs : List Json} (h : readItems (fuel + 1) cs = .ok (vs, left)) : ∀ v ∈ vs, v.Readable := by
  rw [readItems.eq_def] at h
  obtain ⟨⟨v, rest⟩, hv, h⟩ := bind_eq_ok.mp h
  simp only at h
  split at h
  · obtain ⟨rfl, -⟩ := Prod.mk.inj (Except.ok.inj h)
    simpa using ih.value hv
  · obtain ⟨⟨ws, more⟩, hw, he⟩ := bind_eq_ok.mp h
    obtain ⟨rfl, -⟩ := Prod.mk.inj (Except.ok.inj he)
    exact List.forall_mem_cons.mpr ⟨ih.value hv, ih.items hw⟩
  · cases h

theorem readable_of_readFields_succ {fuel : Nat} (ih : ReadsReadable fuel) {cs left : List Char}
    {ps : List (Text × Json)} (h : readFields (fuel + 1) cs = .ok (ps, left)) :
    ∀ f ∈ ps, f.1.Joined ∧ f.2.Readable := by
  rw [readFields.eq_def] at h
  simp only at h
  split at h
  · obtain ⟨⟨k, afterKey⟩, hk, h⟩ := bind_eq_ok.mp h
    simp only at h
    split at h
    · obtain ⟨⟨v, afterValue⟩, hv, h⟩ := bind_eq_ok.mp h
      simp only at h
      have hf : k.Joined ∧ v.Readable := ⟨joined_of_readString hk, ih.value hv⟩
      split at h
      · obtain ⟨rfl, -⟩ := Prod.mk.inj (Except.ok.inj h)
        simpa using hf
      · obtain ⟨⟨qs, more⟩, hq, he⟩ := bind_eq_ok.mp h
        obtain ⟨rfl, -⟩ := Prod.mk.inj (Except.ok.inj he)
        exact List.forall_mem_cons.mpr ⟨hf, ih.fields hq⟩
      · cases h
    · cases h
  · cases h

theorem readsReadable (fuel : Nat) : ReadsReadable fuel := by
  induction fuel with
  | zero =>
    constructor
    · intro cs left v h
      rw [readValue.eq_def] at h
      cases h
    · intro cs left vs h
      rw [readItems.eq_def] at h
      cases h
    · intro cs left ps h
      rw [readFields.eq_def] at h
      cases h
  | succ fuel ih =>
    constructor
    · exact readable_of_readValue_succ ih
    · exact readable_of_readItems_succ ih
    · exact readable_of_readFields_succ ih

theorem readable_of_read {cs : List Char} {v : Json} (h : Json.read cs = .ok v) : v.Readable := by
  have hall : readAll cs = .ok v := by
    rw [Json.read] at h
    split at h
    · next he => rw [he, Except.ok.inj h]
    · cases h
    · cases h
  rw [readAll.eq_def] at hall
  split at hall
  · cases hall
  · obtain ⟨⟨w, rest⟩, hw, hall⟩ := bind_eq_ok.mp hall
    simp only at hall
    split at hall
    · obtain rfl := Except.ok.inj hall
      exact (readsReadable _).value hw
    · cases hall

end Allowlist.Json
