import Allowlist.Proofs.Except
import Allowlist.Proofs.Text.Utf8
import Allowlist.Text.Pieces

/-!
# How a text that is read in pieces begins

Whatever follows, characters at the front of a text are at the front of its first piece, if there is
a piece at all. Without one there is a fault.
-/
namespace Allowlist

namespace Utf8

theorem decodeFrom_encode_append (pos : Nat) (cs : List Char) (bs : Bytes) :
    decodeFrom pos (encode cs ++ bs) =
      (cs ++ ·) <$> decodeFrom (pos + (encode cs).length) bs := by
  induction cs generalizing pos with
  | nil =>
    simp only [encode_nil, List.nil_append, List.length_nil, Nat.add_zero]
    cases decodeFrom pos bs <;> rfl
  | cons c cs ih =>
    rw [encode_cons, List.append_assoc, decodeFrom_encodeChar, ih, List.length_append, Nat.add_assoc]
    cases decodeFrom (pos + ((encodeChar c).length + (encode cs).length)) bs <;> rfl

/-- A fault is not before the place where decoding starts. -/
theorem le_position_of_decodeFrom {pos : Nat} {bs : Bytes} {f : Fault}
    (h : decodeFrom pos bs = .error f) : pos ≤ f.position := by
  fun_induction decodeFrom pos bs
  -- a branch is good, or fails at its first byte, or goes on behind its sequence
  all_goals first
    | cases h; done
    | (obtain rfl := Except.error.inj h; exact Nat.le_refl _)
    | (next ih => have := ih (map_eq_error.mp h); omega)

end Utf8

theorem Lines.prefix_unify {cs ds : List Char} (hcs : '\r' ∉ cs) (h : cs <+: ds) :
    cs <+: unify ds := by
  induction cs generalizing ds with
  | nil => exact List.nil_prefix
  | cons c cs ih =>
    obtain ⟨hc, hrest⟩ := not_or.mp fun hm => hcs (List.mem_cons.mpr hm)
    obtain ⟨more, rfl⟩ := h
    have hu : unify (c :: (cs ++ more)) = c :: unify (cs ++ more) := by
      rw [unify.eq_def]
      split <;> simp_all
    rw [List.cons_append, hu, List.cons_prefix_cons]
    exact ⟨rfl, ih hrest (List.prefix_append cs more)⟩

namespace Pieces

open Utf8 (Bytes encode decode)

/-- Characters that can stand at the front of a piece: none is a carriage return, and they fit. -/
structure Leads (cs : List Char) : Prop where
  ne_nil : cs ≠ []
  noReturn : '\r' ∉ cs
  fits : cs.length ≤ pieceSize
  fitsChunk : (encode cs).length ≤ chunkSize

section

variable {cs : List Char} {bs : Bytes} {r r' : Reader}

theorem prefix_decodeChunk {final : Bool} {out : List Char} {held : Bytes}
    (h : decodeChunk (encode cs ++ bs) final = .ok (out, held)) : cs <+: out := by
  rw [decodeChunk, decode, Utf8.decodeFrom_encode_append] at h
  cases hd : Utf8.decodeFrom (0 + (encode cs).length) bs with
  | ok ds =>
    simp only [hd, Functor.map, Except.map, Except.ok.injEq, Prod.mk.injEq] at h
    exact ⟨ds, h.1⟩
  | error f =>
    -- what comes before the fault includes all of the front
    have hle : (encode cs).length ≤ f.position := by
      have := Utf8.le_position_of_decodeFrom hd
      omega
    simp only [hd, Functor.map, Except.map] at h
    split at h
    · rw [decode, List.take_append, List.take_of_length_le hle, Utf8.decodeFrom_encode_append] at h
      cases hd' : Utf8.decodeFrom (0 + (encode cs).length)
          (bs.take (f.position - (encode cs).length)) with
      | ok ds =>
        simp only [hd', Functor.map, Except.map, Except.ok.injEq, Prod.mk.injEq] at h
        exact ⟨ds, h.1⟩
      | error g =>
        simp only [hd', Functor.map, Except.map] at h
        cases h
    · cases h

theorem prefix_holdReturn (hcs : Leads cs) {out : List Char} (h : cs <+: out) (final : Bool) :
    cs <+: (holdReturn out false final).1 := by
  obtain ⟨more, rfl⟩ := h
  simp only [holdReturn, Bool.false_and, Bool.false_eq_true, ↓reduceIte]
  split
  · next hlast =>
    have hmore : more ≠ [] := by
      rintro rfl
      rw [List.append_nil] at hlast
      have hm : '\r' ∈ cs := List.mem_of_getLast? (by simpa using (Bool.and_eq_true_iff.mp hlast).2)
      exact hcs.noReturn hm
    rw [List.dropLast_append_of_ne_nil hmore]
    exact List.prefix_append cs _
  · exact List.prefix_append cs more

/-- The first chunk brings the front. -/
theorem prefix_readChunk_start (hcs : Leads cs) {wanted : Nat}
    (h : (Reader.start (encode cs ++ bs)).readChunk wanted = .ok r) : cs <+: r.ready := by
  simp only [Reader.readChunk, Reader.start, ↓reduceIte, List.nil_append] at h
  rw [List.take_append, List.take_of_length_le (Nat.le_trans hcs.fitsChunk (Nat.le_max_left _ _))] at h
  split at h
  · cases h
  · next out held hd =>
    obtain rfl := Except.ok.inj h
    exact Lines.prefix_unify hcs.noReturn (prefix_holdReturn hcs (prefix_decodeChunk hd) _)

theorem ready_readChunk {wanted : Nat} (h : r.readChunk wanted = .ok r') :
    r.ready <+: r'.ready := by
  simp only [Reader.readChunk] at h
  split at h
  · cases h
  · obtain rfl := Except.ok.inj h
    exact List.prefix_append _ _

theorem ready_fill {fuel : Nat} (h : r.fill fuel = .ok r') : r.ready <+: r'.ready := by
  induction fuel generalizing r with
  | zero =>
    obtain rfl := Except.ok.inj h
    exact List.prefix_rfl
  | succ fuel ih =>
    rw [Reader.fill] at h
    split at h
    · obtain rfl := Except.ok.inj h
      exact List.prefix_rfl
    · split at h
      · cases h
      · next next hn =>
        have hnext : r.ready <+: next.ready := ready_readChunk hn
        split at h
        · obtain rfl := Except.ok.inj h
          exact hnext
        · exact hnext.trans (ih h)

theorem prefix_fill_start (hcs : Leads cs) {fuel : Nat}
    (h : (Reader.start (encode cs ++ bs)).fill (fuel + 1) = .ok r) : cs <+: r.ready := by
  have hsize : ¬pieceSize ≤ (Reader.start (encode cs ++ bs)).ready.length := by
    simp [Reader.start, pieceSize]
  rw [Reader.fill, if_neg hsize] at h
  split at h
  · cases h
  · next next hn =>
    have hnext : cs <+: next.ready := prefix_readChunk_start hcs hn
    split at h
    · obtain rfl := Except.ok.inj h
      exact hnext
    · exact hnext.trans (ready_fill h)

/-- The first piece begins as the text does. -/
theorem read_encode_append (hcs : Leads cs) (bs : Bytes) :
    (∃ f, read (encode cs ++ bs) = ([], some f)) ∨
      ∃ piece more fault, read (encode cs ++ bs) = (piece :: more, fault) ∧ cs <+: piece := by
  rw [read, readFrom]
  cases hr : (Reader.start (encode cs ++ bs)).fill
      ((Reader.start (encode cs ++ bs)).bytes.length + 2) with
  | error f => exact .inl ⟨f, rfl⟩
  | ok r =>
    have hready : cs <+: r.ready := prefix_fill_start hcs hr
    have hne : r.ready ≠ [] := fun he => hcs.ne_nil (List.prefix_nil.mp (he ▸ hready))
    have htake : cs <+: r.ready.take pieceSize := by
      obtain ⟨more, hm⟩ := hready
      rw [← hm, List.take_append, List.take_of_length_le hcs.fits]
      exact List.prefix_append cs _
    simp only [if_neg hne]
    exact .inr ⟨_, _, _, rfl, htake⟩

end

end Pieces

end Allowlist
