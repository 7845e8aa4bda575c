import Allowlist.Assoc

/-!
# Ordered maps with distinct keys

A list of pairs whose keys are distinct is a map as it stands: putting its pairs one after the
other gives it back, and a look-up finds each of its entries. Every map that is put together has
distinct keys.
-/
namespace Allowlist.Assoc

variable {κ α : Type}

@[simp] theorem keys_nil : keys ([] : Assoc κ α) = [] := rfl

@[simp] theorem keys_cons (p : κ × α) (m : Assoc κ α) : keys (p :: m) = p.1 :: keys m := rfl

theorem mem_keys_of_mem {m : Assoc κ α} {p : κ × α} (h : p ∈ m) : p.1 ∈ keys m :=
  List.mem_map_of_mem h

/-- A map whose values all come from `f` comes from a map as a whole. -/
theorem exists_map_of_forall {β : Type} {f : β → α} {P : β → Prop} {m : Assoc κ α}
    (h : ∀ p ∈ m, ∃ b, p.2 = f b ∧ P b) :
    ∃ l : Assoc κ β, m = l.map (fun p => (p.1, f p.2)) ∧ ∀ p ∈ l, P p.2 := by
  induction m with
  | nil => exact ⟨[], rfl, by simp⟩
  | cons p m ih =>
    obtain ⟨hp, hm⟩ := List.forall_mem_cons.mp h
    obtain ⟨b, hb, hP⟩ := hp
    obtain ⟨l, rfl, hl⟩ := ih hm
    refine ⟨(p.1, b) :: l, ?_, List.forall_mem_cons.mpr ⟨hP, hl⟩⟩
    rw [List.map_cons, ← hb]

theorem keys_map {β : Type} (f : β → α) (l : Assoc κ β) :
    keys (l.map fun p => (p.1, f p.2)) = keys l := by
  simp [keys]

variable [DecidableEq κ]

theorem put_of_not_mem {m : Assoc κ α} {key : κ} (h : key ∉ keys m) (value : α) :
    put m key value = m ++ [(key, value)] := by
  induction m with
  | nil => rfl
  | cons p m ih =>
    have hne : p.1 ≠ key := fun he => h (by simp [he])
    have hm : key ∉ keys m := fun hk => h (by simp [hk])
    rw [put, if_neg hne, ih hm, List.cons_append]

theorem foldl_put_of_nodup {m ps : Assoc κ α} (h : (keys (m ++ ps)).Nodup) :
    ps.foldl (fun m p => put m p.1 p.2) m = m ++ ps := by
  induction ps generalizing m with
  | nil => simp
  | cons p ps ih =>
    have hp : p.1 ∉ keys m := by
      intro hm
      simp only [keys, List.map_append, List.map_cons, List.nodup_append] at h
      exact h.2.2 p.1 hm p.1 (by simp) rfl
    rw [List.foldl_cons, put_of_not_mem hp, ih (by simpa using h)]
    simp

/-- Pairs with distinct keys are their own map. -/
theorem ofPairs_of_nodup {ps : Assoc κ α} (h : ps.keys.Nodup) : ofPairs ps = ps :=
  foldl_put_of_nodup (m := []) h

theorem get?_map {β : Type} (f : α → β) (m : Assoc κ α) (key : κ) :
    get? (m.map fun p => (p.1, f p.2)) key = (get? m key).map f := by
  induction m with
  | nil => rfl
  | cons p m ih =>
    rw [List.map_cons, get?_cons, get?_cons, ih]
    split <;> rfl

theorem get?_isSome_iff {m : Assoc κ α} {key : κ} : (get? m key).isSome = true ↔ key ∈ keys m := by
  induction m with
  | nil => simp
  | cons p m ih =>
    obtain ⟨k, v⟩ := p
    rw [get?_cons]
    split
    · next he => simp [he]
    · next hne => simp [hne, ih]

theorem get?_eq_none_iff {m : Assoc κ α} {key : κ} : get? m key = none ↔ key ∉ keys m := by
  rw [← Option.not_isSome_iff_eq_none, get?_isSome_iff]

/-- A look-up in what is left of the values of a map with distinct keys. -/
theorem get?_filterMap {β : Type} (f : α → Option β) {m : Assoc κ α} (h : (keys m).Nodup) (key : κ) :
    get? (m.filterMap fun p => (f p.2).map (p.1, ·)) key = (get? m key).bind f := by
  induction m with
  | nil => rfl
  | cons p m ih =>
    obtain ⟨hp, hm⟩ := List.nodup_cons.mp h
    rw [List.filterMap_cons, get?_cons]
    cases hf : f p.2 with
    | none =>
      simp only [Option.map_none, ih hm]
      split
      · next he =>
        have hn : get? m key = none := get?_eq_none_iff.mpr (he ▸ hp)
        rw [hn, Option.bind_some, hf]
        rfl
      · rfl
    | some b =>
      simp only [Option.map_some, get?_cons, ih hm]
      split
      · rw [Option.bind_some, hf]
      · rfl

theorem mem_of_get? {m : Assoc κ α} {key : κ} {value : α} (h : get? m key = some value) :
    (key, value) ∈ m := by
  induction m with
  | nil => cases h
  | cons p m ih =>
    obtain ⟨k, v⟩ := p
    rw [get?_cons] at h
    split at h
    · next he =>
      obtain rfl := Option.some.inj h
      simp [he]
    · exact List.mem_cons_of_mem _ (ih h)

/-- An entry of a map with distinct keys is what a look-up finds. -/
theorem get?_of_mem {m : Assoc κ α} (h : (keys m).Nodup) {p : κ × α} (hp : p ∈ m) :
    get? m p.1 = some p.2 := by
  induction m with
  | nil => cases hp
  | cons q m ih =>
    obtain ⟨hq, hm⟩ := List.nodup_cons.mp h
    rw [get?_cons]
    rcases List.mem_cons.mp hp with rfl | hp
    · rw [if_pos rfl]
    · have hne : p.1 ≠ q.1 := by
        intro he
        exact hq (he ▸ mem_keys_of_mem hp)
      rw [if_neg hne, ih hm hp]

/-- Keys that are put leave the others as they are. -/
theorem get?_foldl_put {ps : List (κ × α)} {key : κ} (h : ∀ p ∈ ps, p.1 ≠ key) (m : Assoc κ α) :
    get? (ps.foldl (fun m p => put m p.1 p.2) m) key = get? m key := by
  induction ps generalizing m with
  | nil => rfl
  | cons p rest ih =>
    obtain ⟨hp, hrest⟩ := List.forall_mem_cons.mp h
    rw [List.foldl_cons, ih hrest, get?_put, if_neg (Ne.symm hp)]

theorem forall_mem_put {P : κ × α → Prop} {m : Assoc κ α} {key : κ} {value : α}
    (hm : ∀ p ∈ m, P p) (hp : P (key, value)) : ∀ p ∈ put m key value, P p := by
  induction m with
  | nil => simpa [put] using hp
  | cons q m ih =>
    obtain ⟨k, v⟩ := q
    obtain ⟨hq, hm⟩ := List.forall_mem_cons.mp hm
    rw [put]
    split
    · next he =>
      subst he
      exact List.forall_mem_cons.mpr ⟨hp, hm⟩
    · exact List.forall_mem_cons.mpr ⟨hq, ih hm⟩

theorem mem_keys_put {m : Assoc κ α} {key : κ} {value : α} {k : κ} :
    k ∈ keys (put m key value) ↔ k = key ∨ k ∈ keys m := by
  induction m with
  | nil => simp [put]
  | cons q m ih =>
    rw [put]
    split
    · next he => simp [← he]
    · simp only [keys_cons, List.mem_cons, ih]
      grind

theorem nodup_keys_put {m : Assoc κ α} (h : (keys m).Nodup) (key : κ) (value : α) :
    (keys (put m key value)).Nodup := by
  induction m with
  | nil => simp [put]
  | cons q m ih =>
    obtain ⟨hq, hm⟩ := List.nodup_cons.mp h
    rw [put]
    split
    · exact h
    · next hne =>
      refine List.nodup_cons.mpr ⟨?_, ih hm⟩
      intro hk
      rcases mem_keys_put.mp hk with he | hk
      · exact hne he
      · exact hq hk

/-- What holds of a map and of all pairs holds of the map with the pairs put into it. -/
theorem forall_mem_foldl_put {P : κ × α → Prop} {ps : List (κ × α)} (h : ∀ p ∈ ps, P p)
    {m : Assoc κ α} (hm : ∀ p ∈ m, P p) :
    ∀ p ∈ ps.foldl (fun m p => put m p.1 p.2) m, P p := by
  induction ps generalizing m with
  | nil => exact hm
  | cons q ps ih =>
    obtain ⟨hq, hps⟩ := List.forall_mem_cons.mp h
    exact ih hps (forall_mem_put hm hq)

theorem nodup_keys_foldl_put (ps : List (κ × α)) {m : Assoc κ α} (hm : (keys m).Nodup) :
    (keys (ps.foldl (fun m p => put m p.1 p.2) m)).Nodup := by
  induction ps generalizing m with
  | nil => exact hm
  | cons q ps ih => exact ih (nodup_keys_put hm q.1 q.2)

theorem forall_mem_ofPairs {P : κ × α → Prop} {ps : List (κ × α)} (h : ∀ p ∈ ps, P p) :
    ∀ p ∈ ofPairs ps, P p :=
  forall_mem_foldl_put h (by simp)

theorem nodup_keys_ofPairs (ps : List (κ × α)) : (keys (ofPairs ps)).Nodup :=
  nodup_keys_foldl_put ps List.nodup_nil

theorem keys_put_of_mem {m : Assoc κ α} {key : κ} (h : key ∈ keys m) (value : α) :
    keys (put m key value) = keys m := by
  induction m with
  | nil => cases h
  | cons q m ih =>
    rw [put]
    split
    · rfl
    · next hne =>
      have hm : key ∈ keys m := (List.mem_cons.mp h).resolve_left (Ne.symm hne)
      rw [keys_cons, ih hm, keys_cons]

/-- Keys that are there keep their places, and the others follow in their order. -/
theorem keys_foldl_put {ps m : Assoc κ α} (h : (keys ps).Nodup) :
    keys (ps.foldl (fun m p => put m p.1 p.2) m) =
      keys m ++ (keys ps).filter (fun key => key ∉ keys m) := by
  induction ps generalizing m with
  | nil => simp
  | cons p ps ih =>
    obtain ⟨hp, hps⟩ := List.nodup_cons.mp h
    rw [List.foldl_cons, ih hps, keys_cons]
    by_cases hm : p.1 ∈ keys m
    · rw [keys_put_of_mem hm, List.filter_cons_of_neg (by simpa using hm)]
    · have hrest : (keys ps).filter (fun key => key ∉ keys (put m p.1 p.2)) =
          (keys ps).filter (fun key => key ∉ keys m) := by
        refine List.filter_congr fun key hk => ?_
        have hne : key ≠ p.1 := fun he => hp (he ▸ hk)
        simp [mem_keys_put, hne]
      rw [hrest, put_of_not_mem hm, List.filter_cons_of_pos (by simpa using hm)]
      simp [keys]

/-- A key that is put has its new value, any other the one that it had. -/
theorem get?_foldl_put_of_nodup {ps m : Assoc κ α} (h : (keys ps).Nodup) (key : κ) :
    get? (ps.foldl (fun m p => put m p.1 p.2) m) key = (get? ps key).or (get? m key) := by
  induction ps generalizing m with
  | nil => simp
  | cons p ps ih =>
    obtain ⟨hp, hps⟩ := List.nodup_cons.mp h
    rw [List.foldl_cons, ih hps, get?_put, get?_cons]
    by_cases he : key = p.1
    · have hn : get? ps key = none := by
        rw [← Option.not_isSome_iff_eq_none, get?_isSome_iff, he]
        exact hp
      rw [if_pos he, if_pos he, hn]
      rfl
    · rw [if_neg he, if_neg he]

end Allowlist.Assoc
