import Mathlib
import Allowlist.Proofs.Assoc
import Allowlist.Proofs.Except
import Allowlist.Proofs.Text.Pieces
import Allowlist.Yaml.Token

/-!
# How the tokens of a text begin

A step of the scanner puts its tokens behind those that are there, unless it finds at a colon that a token
before was a key. Of a text that begins with a brace and a key in quotes, only the brace may still become
a key once the colon behind the key is read, so the tokens begin with that mapping in braces, or with
the marks that make it a key itself.
-/
namespace Allowlist.Yaml

namespace Scanner

section

variable {s s' s'' : Scanner} {t : Token}

/-- From `s` to `s'` tokens are put behind those that are there, and those that may be keys are among the
new ones or were before. -/
structure Adds (s s' : Scanner) : Prop where
  tokens : s.tokens.toList <+: s'.tokens.toList
  candidates : ∀ p ∈ s'.candidates, p ∈ s.candidates ∨ s.tokens.size ≤ p.2.token
  depth : (∀ p ∈ s.candidates, p.1 ≤ s.flow) → ∀ p ∈ s'.candidates, p.1 ≤ s'.flow

theorem Adds.trans (h : Adds s s') (h' : Adds s' s'') : Adds s s'' where
  tokens := h.tokens.trans h'.tokens
  candidates p hp := by
    rcases h'.candidates p hp with hp | hp
    · exact h.candidates p hp
    · exact .inr (Nat.le_trans h.tokens.length_le hp)
  depth hd := h'.depth (h.depth hd)

/-- Where the scanner stands and which blocks are open does not matter. -/
theorem adds_of_eq (ht : s'.tokens = s.tokens) (hc : s'.candidates = s.candidates)
    (hf : s'.flow = s.flow) : Adds s s' where
  tokens := ht ▸ List.prefix_rfl
  candidates _ hp := .inl (hc ▸ hp)
  depth hd := by rwa [hc, hf]

theorem adds_refl (s : Scanner) : Adds s s := adds_of_eq rfl rfl rfl

theorem adds_allow (s : Scanner) (allowed : Bool) : Adds s { s with keyAllowed := allowed } :=
  adds_of_eq rfl rfl rfl

theorem adds_filter (s : Scanner) (keep : Nat × Candidate → Bool) :
    Adds s { s with candidates := s.candidates.filter keep } where
  tokens := List.prefix_rfl
  candidates _ hp := .inl (List.mem_filter.mp hp).1
  depth hd p hp := hd p (List.mem_filter.mp hp).1

theorem adds_push (s : Scanner) (t : Token) : Adds s (s.push t) where
  tokens := by simp [push]
  candidates _ hp := .inl hp
  depth hd := hd

theorem adds_take {α : Type} {scan : Scan α} {a : α} (h : s.take scan = .ok (a, s')) : Adds s s' := by
  obtain ⟨⟨b, cursor⟩, -, h⟩ := bind_eq_ok.mp h
  obtain ⟨-, rfl⟩ := Prod.mk.inj (Except.ok.inj h)
  exact adds_of_eq rfl rfl rfl

theorem adds_emit {scan : Scan Token} (h : s.emit scan = .ok s') : Adds s s' := by
  obtain ⟨⟨t, next⟩, ht, h⟩ := bind_eq_ok.mp h
  obtain rfl := Except.ok.inj h
  exact (adds_take ht).trans (adds_push next t)

theorem adds_mark {n : Nat} (h : s.mark n t = .ok s') : Adds s s' := adds_emit h

theorem forget_eq_ok (h : s.forget = .ok s') : s' = s.dropCandidate := by
  rw [forget] at h
  split at h
  · split at h
    · cases h
    · exact (Except.ok.inj h).symm
  · next hnone =>
    have hall : ∀ p ∈ s.candidates, p.1 ≠ s.flow := by
      rintro p hp he
      have hsome := Assoc.get?_isSome_iff.mpr (he ▸ Assoc.mem_keys_of_mem hp)
      rw [hnone] at hsome
      cases hsome
    rw [← Except.ok.inj h, dropCandidate, List.filter_eq_self.mpr (by simpa using hall)]

theorem adds_forget (h : s.forget = .ok s') : Adds s s' := forget_eq_ok h ▸ adds_filter s _

theorem adds_expire (h : s.expire = .ok s') : Adds s s' := by
  rw [expire] at h
  split at h
  · cases h
  · obtain rfl := Except.ok.inj h
    exact adds_filter s _

theorem adds_remember (h : s.remember = .ok s') : Adds s s' := by
  rw [remember] at h
  split at h
  · obtain ⟨next, hn, h⟩ := bind_eq_ok.mp h
    obtain rfl := Except.ok.inj h
    refine (adds_forget hn).trans ⟨List.prefix_rfl, ?_, fun hd => ?_⟩
    · exact Assoc.forall_mem_put (fun _ hp => .inl hp) (.inr (Nat.le_refl _))
    · exact Assoc.forall_mem_put hd (Nat.le_refl _)
  · obtain rfl := Except.ok.inj h
    exact adds_refl _

theorem adds_unwind (s : Scanner) (column : Int) : Adds s (s.unwind column) := by
  rw [unwind]
  split
  · exact ⟨by simp, fun _ hp => .inl hp, id⟩
  · exact adds_refl s

theorem adds_openedHere (h : s.openedHere t = .ok s') : Adds s s' := by
  have hinsert : s.tokens.toList.insertIdx s.tokens.size t = s.tokens.toList ++ [t] :=
    List.insertIdx_length_self
  rw [openedHere] at h
  split at h
  · split at h
    · obtain rfl := Except.ok.inj h
      rw [opened]
      split
      · exact ⟨by simp [hinsert], fun _ hp => .inl hp, id⟩
      · exact adds_refl s
    · cases h
  · obtain rfl := Except.ok.inj h
    exact adds_refl _

theorem adds_toToken (h : s.toToken = .ok s') : Adds s s' := by
  obtain ⟨⟨broken, next⟩, hn, h⟩ := bind_eq_ok.mp h
  obtain rfl := Except.ok.inj h
  exact (adds_take hn).trans (adds_allow next _)

theorem adds_outside (h : s.outside = .ok s') : Adds s s' := by
  obtain ⟨next, hn, h⟩ := bind_eq_ok.mp h
  obtain rfl := Except.ok.inj h
  exact (adds_unwind s (-1)).trans ((adds_forget hn).trans (adds_allow next false))

/-! ## One token -/

theorem adds_openBracket (h : s.openBracket t = .ok s') : Adds s s' := by
  obtain ⟨next, hn, h⟩ := bind_eq_ok.mp h
  have hdeeper : Adds next { next with flow := next.flow + 1, keyAllowed := true } :=
    ⟨List.prefix_rfl, fun _ hp => .inl hp, fun hd p hp => Nat.le_succ_of_le (hd p hp)⟩
  exact (adds_remember hn).trans (hdeeper.trans (adds_mark h))

/-- What may be a key inside of the brackets is forgotten with them. -/
theorem adds_closeBracket (h : s.closeBracket t = .ok s') : Adds s s' := by
  rw [closeBracket] at h
  split at h
  · cases h
  · obtain ⟨next, hn, h⟩ := bind_eq_ok.mp h
    obtain rfl := forget_eq_ok hn
    have hcloser : Adds s { s.dropCandidate with flow := s.flow - 1, keyAllowed := false } := by
      refine ⟨List.prefix_rfl, fun _ hp => .inl (List.mem_filter.mp hp).1, fun hd p hp => ?_⟩
      obtain ⟨hp, hne⟩ := List.mem_filter.mp hp
      have hne : p.1 ≠ s.flow := of_decide_eq_true hne
      exact Nat.le_sub_one_of_lt (Nat.lt_of_le_of_ne (hd p hp) hne)
    exact hcloser.trans (adds_mark h)

theorem adds_forget_mark {allowed : Bool} {n : Nat}
    (h : (do let next ← { s with keyAllowed := allowed }.forget; next.mark n t) = .ok s') :
    Adds s s' := by
  obtain ⟨next, hn, h⟩ := bind_eq_ok.mp h
  exact (adds_allow s allowed).trans ((adds_forget hn).trans (adds_mark h))

theorem adds_comma (h : s.comma = .ok s') : Adds s s' := adds_forget_mark h

theorem adds_entry (h : s.entry = .ok s') : Adds s s' := by
  obtain ⟨next, hn, h⟩ := bind_eq_ok.mp h
  exact (adds_openedHere hn).trans (adds_forget_mark h)

theorem adds_explicitKey (h : s.explicitKey = .ok s') : Adds s s' := by
  obtain ⟨next, hn, h⟩ := bind_eq_ok.mp h
  exact (adds_openedHere hn).trans (adds_forget_mark h)

/-- A colon without a key before it. -/
theorem adds_value (hnone : s.candidates.get? s.flow = none) (h : s.value = .ok s') : Adds s s' := by
  rw [value, hnone] at h
  obtain ⟨next, hn, h⟩ := bind_eq_ok.mp h
  exact (adds_openedHere hn).trans (adds_forget_mark h)

theorem adds_keyLike {scan : Scan Token} (h : s.keyLike scan = .ok s') : Adds s s' := by
  obtain ⟨next, hn, h⟩ := bind_eq_ok.mp h
  exact (adds_remember hn).trans ((adds_allow next false).trans (adds_emit h))

theorem adds_block {folded : Bool} (h : s.block folded = .ok s') : Adds s s' := by
  obtain ⟨next, hn, h⟩ := bind_eq_ok.mp h
  exact (adds_allow s true).trans ((adds_forget hn).trans (adds_emit h))

theorem adds_plain (h : s.plain = .ok s') : Adds s s' := by
  obtain ⟨next, hn, h⟩ := bind_eq_ok.mp h
  obtain ⟨⟨⟨cs, broken⟩, behind⟩, hb, h⟩ := bind_eq_ok.mp h
  obtain rfl := Except.ok.inj h
  exact (adds_remember hn).trans
    ((adds_take hb).trans ((adds_allow behind broken).trans (adds_push _ _)))

theorem stepByNext_cases {c : Char} (h : s.stepByNext c = .ok s') :
    Adds s s' ∨ s.value = .ok s' := by
  obtain ⟨⟨blank, behind⟩, -, h⟩ := bind_eq_ok.mp h
  rcases eq_ok_of_ite h with h | h
  · rcases eq_ok_of_ite h with h | h
    · exact .inl (adds_entry h)
    rcases eq_ok_of_ite h with h | h
    · exact .inl (adds_explicitKey h)
    rcases eq_ok_of_ite h with h | h
    · exact .inr h
    · cases h
  rcases eq_ok_of_ite h with h | h
  · exact .inl (adds_plain h)
  · cases h

/-- A step puts tokens behind those that are there, or it finds a colon. -/
theorem step_cases {c : Char} (h : s.step c = .ok s') : Adds s s' ∨ s.value = .ok s' := by
  obtain ⟨marked, -, h⟩ := bind_eq_ok.mp h
  -- the branches in their order
  rcases eq_ok_of_ite h with h | h
  · obtain ⟨next, hn, h⟩ := bind_eq_ok.mp h
    exact .inl ((adds_outside hn).trans (adds_mark h))
  rcases eq_ok_of_ite h with h | h
  · obtain ⟨next, hn, h⟩ := bind_eq_ok.mp h
    exact .inl ((adds_outside hn).trans (adds_emit h))
  rcases eq_ok_of_ite h with h | h
  · exact .inl (adds_openBracket h)
  rcases eq_ok_of_ite h with h | h
  · exact .inl (adds_openBracket h)
  rcases eq_ok_of_ite h with h | h
  · exact .inl (adds_closeBracket h)
  rcases eq_ok_of_ite h with h | h
  · exact .inl (adds_closeBracket h)
  rcases eq_ok_of_ite h with h | h
  · exact .inl (adds_comma h)
  rcases eq_ok_of_ite h with h | h
  · exact .inl (adds_explicitKey h)
  rcases eq_ok_of_ite h with h | h
  · exact .inr h
  rcases eq_ok_of_ite h with h | h
  · exact .inl (adds_keyLike h)
  rcases eq_ok_of_ite h with h | h
  · exact .inl (adds_keyLike h)
  rcases eq_ok_of_ite h with h | h
  · exact .inl (adds_keyLike h)
  rcases eq_ok_of_ite h with h | h
  · exact .inl (adds_block h)
  rcases eq_ok_of_ite h with h | h
  · exact .inl (adds_keyLike h)
  rcases eq_ok_of_ite h with h | h
  · exact stepByNext_cases h
  · exact .inl (adds_plain h)

/-- The next token, behind what is skipped before it. -/
theorem next?_cases (h : s.next? = .ok (some s')) :
    ∃ before, Adds s before ∧ (Adds before s' ∨ before.value = .ok s') := by
  obtain ⟨near, hnear, h⟩ := bind_eq_ok.mp h
  obtain ⟨here, hhere, h⟩ := bind_eq_ok.mp h
  obtain ⟨there, hthere, h⟩ := bind_eq_ok.mp h
  have hbefore : Adds s (there.unwind there.cursor.column) :=
    (adds_expire hnear).trans
      ((adds_toToken hhere).trans ((adds_expire hthere).trans (adds_unwind there _)))
  dsimp only at h
  split at h
  · cases h
  · obtain ⟨next, hn, h⟩ := bind_eq_ok.mp h
    obtain rfl := Option.some.inj (Except.ok.inj h)
    exact ⟨_, hbefore, step_cases hn⟩

end

/-! ## A mapping in braces at the front -/

/-- The tokens of a mapping in braces whose first key stands in quotes. -/
def recordFront (key : Text) : List Token := [.recordStart, .key, .scalar false key, .value]

/-- The mapping by itself, or as a key, which may begin a mapping around it. -/
inductive Front (key : Text) : List Token → Prop
  | record : Front key (recordFront key)
  | key : Front key (.key :: recordFront key)
  | mapping : Front key (.mappingStart :: .key :: recordFront key)

/-- The tokens begin with `front`, of which only the brace may still become a key. -/
structure Begins (key : Text) (front : List Token) (s : Scanner) : Prop where
  isFront : Front key front
  tokens : front <+: s.tokens.toList
  depth : ∀ p ∈ s.candidates, p.1 ≤ s.flow
  candidates : ∀ p ∈ s.candidates, front.length ≤ p.2.token ∨
    (front = recordFront key ∧ p.1 = 0 ∧ p.2.token = 0)

section

variable {key : Text} {front : List Token} {s s' : Scanner}

theorem Begins.adds (h : Begins key front s) (ha : Adds s s') : Begins key front s' where
  isFront := h.isFront
  tokens := h.tokens.trans ha.tokens
  depth := ha.depth h.depth
  candidates p hp := by
    rcases ha.candidates p hp with hp | hp
    · exact h.candidates p hp
    · exact .inl (Nat.le_trans h.tokens.length_le hp)

theorem prefix_insertIdx {α : Type} {xs ys : List α} {n : Nat} (h : xs <+: ys)
    (hn : xs.length ≤ n) (a : α) : xs <+: ys.insertIdx n a := by
  induction xs generalizing ys n with
  | nil => exact List.nil_prefix
  | cons x xs ih =>
    obtain ⟨rest, rfl⟩ := h
    cases n with
    | zero => cases hn
    | succ n =>
      rw [List.cons_append, List.insertIdx_succ_cons, List.cons_prefix_cons]
      exact ⟨rfl, ih (List.prefix_append xs rest) (Nat.le_of_succ_le_succ hn)⟩

/-- A token is marked as a key, which begins a mapping or does not. -/
theorem value_of_candidate {k : Candidate} (hk : s.candidates.get? s.flow = some k)
    (hv : s.value = .ok s') : ∃ marked : Scanner, Adds marked s' ∧ marked.flow = s.flow ∧
      marked.candidates = s.dropCandidate.candidates ∧
      (marked.tokens.toList = s.tokens.toList.insertIdx k.token .key ∨
        marked.tokens.toList =
          (s.tokens.toList.insertIdx k.token .key).insertIdx k.token .mappingStart) := by
  rw [value, hk] at hv
  refine ⟨_, adds_mark hv, ?_⟩
  dsimp only
  split
  · rw [opened]
    split
    · exact ⟨rfl, rfl, .inr rfl⟩
    · exact ⟨rfl, rfl, .inl rfl⟩
  · exact ⟨rfl, rfl, .inl rfl⟩

/-- If the brace becomes a key, nothing else of what there is may still become one. -/
theorem Begins.value (h : Begins key front s) (hv : s.value = .ok s') :
    ∃ front', Begins key front' s' := by
  cases hk : s.candidates.get? s.flow with
  | none => exact ⟨front, h.adds (adds_value hk hv)⟩
  | some k =>
    obtain ⟨marked, ha, hflow, hcandidates, htokens⟩ := value_of_candidate hk hv
    -- the key is behind the front, or it is the brace
    rcases h.candidates _ (Assoc.mem_of_get? hk) with hbehind | ⟨rfl, hzero, htoken⟩
    · have hmarked : front <+: marked.tokens.toList := by
        have hone := prefix_insertIdx h.tokens hbehind .key
        rcases htokens with ht | ht
        · exact ht ▸ hone
        · exact ht ▸ prefix_insertIdx hone hbehind .mappingStart
      have hmem : ∀ p ∈ marked.candidates, p ∈ s.candidates := fun p hp =>
        (List.mem_filter.mp (hcandidates ▸ hp)).1
      refine ⟨front, Begins.adds ⟨h.isFront, hmarked, fun p hp => ?_, fun p hp => ?_⟩ ha⟩
      · exact hflow ▸ h.depth p (hmem p hp)
      · exact h.candidates p (hmem p hp)
    · have hnone : ∀ p, p ∉ marked.candidates := by
        intro p hp
        obtain ⟨hp, hne⟩ := List.mem_filter.mp (hcandidates ▸ hp)
        have hle : p.1 ≤ 0 := hzero ▸ h.depth p hp
        have hne : p.1 ≠ s.flow := of_decide_eq_true hne
        exact hne ((Nat.le_zero.mp hle).trans hzero.symm)
      obtain ⟨rest, hrest⟩ := h.tokens
      rw [htoken, ← hrest] at htokens
      rcases htokens with ht | ht
      · exact ⟨_, Begins.adds ⟨.key, ⟨rest, ht.symm⟩, fun p hp => absurd hp (hnone p),
          fun p hp => absurd hp (hnone p)⟩ ha⟩
      · exact ⟨_, Begins.adds ⟨.mapping, ⟨rest, ht.symm⟩, fun p hp => absurd hp (hnone p),
          fun p hp => absurd hp (hnone p)⟩ ha⟩

theorem Begins.next? (h : Begins key front s) (hn : s.next? = .ok (some s')) :
    ∃ front', Begins key front' s' := by
  obtain ⟨before, hb, ha | hv⟩ := next?_cases hn
  · exact ⟨front, (h.adds hb).adds ha⟩
  · exact (h.adds hb).value hv

theorem foldl_min_token {bound n : Nat} {ps : List (Nat × Candidate)}
    (hn : n = 0 ∨ bound ≤ n) (h : ∀ p ∈ ps, p.2.token = 0 ∨ bound ≤ p.2.token) :
    ps.foldl (fun n p => min n p.2.token) n = 0 ∨
      bound ≤ ps.foldl (fun n p => min n p.2.token) n := by
  induction ps generalizing n with
  | nil => exact hn
  | cons p ps ih =>
    obtain ⟨hp, hps⟩ := List.forall_mem_cons.mp h
    refine ih ?_ hps
    dsimp only
    omega

/-- Where the scan stops, the front is settled as a whole or not at all. -/
theorem Begins.settled (h : Begins key front s) : s.settled = [] ∨ front <+: s.settled := by
  have hcandidates : ∀ p ∈ s.candidates.filter (s.isNear ·.2),
      p.2.token = 0 ∨ front.length ≤ p.2.token := by
    intro p hp
    rcases h.candidates p (List.mem_filter.mp hp).1 with hle | ⟨-, -, hzero⟩
    · exact .inr hle
    · exact .inl hzero
  rw [Scanner.settled]
  rcases foldl_min_token (.inr h.tokens.length_le) hcandidates with hzero | hle
  · rw [Array.length_toList] at hzero
    exact .inl (by rw [hzero, List.take_zero])
  · exact .inr (List.prefix_take_iff.mpr ⟨h.tokens, hle⟩)

theorem Begins.run (h : Begins key front s) (fuel : Nat) :
    (run fuel s).1 = [] ∨ ∃ front', Front key front' ∧ front' <+: (run fuel s).1 := by
  have hsettled {front : List Token} {s : Scanner} (h : Begins key front s) :
      s.settled = [] ∨ ∃ front', Front key front' ∧ front' <+: s.settled :=
    h.settled.imp id fun hp => ⟨front, h.isFront, hp⟩
  induction fuel generalizing front s with
  | zero => exact hsettled h
  | succ fuel ih =>
    rw [Scanner.run]
    cases hn : s.next? with
    | error f => exact hsettled h
    | ok next =>
      cases next with
      | some next =>
        obtain ⟨front', hnext⟩ := h.next? hn
        exact ih hnext
      | none =>
        cases ho : s.outside with
        | error f => simpa only [ho] using hsettled h
        | ok closed =>
          right
          refine ⟨front, h.isFront, ?_⟩
          simpa only [ho] using (h.adds ((adds_outside ho).trans (adds_push _ _))).tokens

end

/-- A brace and a key in quotes, with the beginning of a value in quotes. -/
def opening : List Char := "\x7b\"schema\":\"".toList

/-- The scanner behind the colon. -/
def afterColon (rest : List Char) (ending : Option Fault) : Scanner where
  cursor := ⟨'"' :: rest, ending, rest.length + 1, 10, 0, 10⟩
  flow := 1
  blocks := []
  keyAllowed := false
  candidates := [(0, ⟨0, false, 0, 0, 0⟩)]
  tokens := #[.recordStart, .key, .scalar false "schema", .value]

theorem exists_begins_of_opening (rest : List Char) (ending : Option Fault) (fuel : Nat) : ∃ s,
    run (fuel + 3) (.start ⟨opening ++ rest, ending⟩) = run fuel s ∧
      Begins "schema" (recordFront "schema") s := by
  -- three steps, none of which gets to the rest
  refine ⟨afterColon rest ending, by cbv, .record, List.prefix_rfl, ?_, ?_⟩
  · simp [afterColon]
  · simp [afterColon]

end Scanner

theorem Token.scan_opening (rest : List Char) (ending : Option Fault) :
    (scan ⟨Scanner.opening ++ rest, ending⟩).1 = [] ∨ ∃ front, Scanner.Front "schema" front ∧
      front <+: (scan ⟨Scanner.opening ++ rest, ending⟩).1 := by
  have hlength : (Scanner.opening ++ rest).length + 1 = (rest.length + 9) + 3 := by
    have hopening : Scanner.opening.length = 11 := by decide
    rw [List.length_append, hopening]
    omega
  obtain ⟨s, hrun, hs⟩ := Scanner.exists_begins_of_opening rest ending (rest.length + 9)
  rw [scan, hlength, hrun]
  exact hs.run _

/-! ## The text of a file -/

open Utf8 (Bytes encode)

theorem Source.ofLoads_cons {cs load : List Char} (h : cs <+: load) (ending : Option Fault)
    (loads : List (List Char)) : (∃ f, ofLoads ending (load :: loads) = ⟨[], some f⟩) ∨
      ∃ rest ending', ofLoads ending (load :: loads) = ⟨cs ++ rest, ending'⟩ := by
  obtain ⟨more, rfl⟩ := h
  rw [ofLoads]
  split
  · exact .inr ⟨_, _, congrArg (Source.mk · _) (List.append_assoc cs more _)⟩
  · exact .inl ⟨_, rfl⟩

/-- The characters of a file begin as the file does, or there are none because of a fault. -/
theorem Source.ofBytes_encode_append {cs : List Char} (hcs : Pieces.Leads cs) (bs : Bytes) :
    (∃ f, ofBytes (encode cs ++ bs) = ⟨[], some f⟩) ∨
      ∃ rest ending, ofBytes (encode cs ++ bs) = ⟨cs ++ rest, ending⟩ := by
  rw [ofBytes]
  rcases Pieces.read_encode_append hcs bs with ⟨f, hr⟩ | ⟨piece, more, fault, hr, hpiece⟩
  · rw [hr]
    exact .inl ⟨_, rfl⟩
  · rw [hr]
    cases more with
    | cons b rest => exact ofLoads_cons (hpiece.trans (List.prefix_append piece b)) _ rest
    | nil =>
      cases fault with
      | some f => exact .inl ⟨_, rfl⟩
      | none => exact ofLoads_cons hpiece none []

theorem Scanner.leads_opening : Pieces.Leads opening := ⟨by decide, by decide, by decide, by decide⟩

theorem Token.scan_ofBytes (bs : Bytes) :
    (scan (.ofBytes (encode Scanner.opening ++ bs))).1 = [] ∨
      ∃ front, Scanner.Front "schema" front ∧
        front <+: (scan (.ofBytes (encode Scanner.opening ++ bs))).1 := by
  rcases Source.ofBytes_encode_append Scanner.leads_opening bs with ⟨f, h⟩ | ⟨rest, ending, h⟩
  · rw [h]
    exact .inl rfl
  · rw [h]
    exact scan_opening rest ending

end Allowlist.Yaml
