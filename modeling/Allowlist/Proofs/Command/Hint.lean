import Allowlist.Proofs.Command.Check

/-!
# The command that a report shows

A report of a policy that has drifted ends with a line that shows a command. Its words are what the
line is read as; if the source and the destination are words themselves, they come back from it
unchanged, and as arguments they are read as the source and the destination.
-/
namespace Allowlist.Command

/-- What separates words. -/
def spaces : Text := " \t\n\x0b\x0c\r"

def isSpace (c : CodePoint) : Bool := spaces.contains c

/-- The words of a text behind the characters `w` of the first one. -/
def wordsFrom : Text → Text → List Text
  | w, [] => if w = [] then [] else [w]
  | w, c :: t =>
    if isSpace c then if w = [] then wordsFrom [] t else w :: wordsFrom [] t
    else wordsFrom (w ++ [c]) t

def words (t : Text) : List Text := wordsFrom [] t

/-- The last line of a text of whole lines. -/
def lastLine (t : Text) : Text := (t.reverse.tail.takeWhile (· ≠ .ofChar '\n')).reverse

/-- The arguments that the last line of a report shows, behind what leads in and the program. -/
def Report.hint (r : Report) : List Text := (words (lastLine r.err)).drop 2

/-- A text that is shown as one word, and not taken for an option. -/
structure IsWord (t : Text) : Prop where
  ne_nil : t ≠ []
  solid : t.any isSpace = false
  noOption : t.head? ≠ some dash

section

variable {s t u w : Text} {c : CodePoint}

theorem wordsFrom_append (hu : u.any isSpace = false) (w t : Text) :
    wordsFrom w (u ++ t) = wordsFrom (w ++ u) t := by
  induction u generalizing w with
  | nil => simp
  | cons c u ih =>
    obtain ⟨hc, hu⟩ := Bool.or_eq_false_iff.mp (List.any_cons.symm.trans hu)
    have hn : ¬isSpace c = true := by simp [hc]
    rw [List.cons_append, wordsFrom, if_neg hn, ih hu, List.append_assoc, List.singleton_append]

theorem words_space (hc : isSpace c = true) (t : Text) : words (c :: t) = words t := by
  rw [words, wordsFrom, if_pos hc, if_pos rfl, words]

/-- A word and the space behind it. -/
theorem words_append_space (hne : u ≠ []) (hu : u.any isSpace = false) (hc : isSpace c = true)
    (t : Text) : words (u ++ c :: t) = u :: words t := by
  rw [words, wordsFrom_append hu, List.nil_append, wordsFrom, if_pos hc, if_neg hne, words]

theorem words_eq_singleton (hne : u ≠ []) (hu : u.any isSpace = false) : words u = [u] := by
  have h := wordsFrom_append hu [] []
  rw [List.append_nil, List.nil_append, wordsFrom, if_neg hne] at h
  exact h

theorem lastLine_append (ht : CodePoint.ofChar '\n' ∉ t) (s : Text) :
    lastLine (s ++ .ofChar '\n' :: (t ++ [.ofChar '\n'])) = t := by
  have hall : ∀ c ∈ t.reverse, decide (c ≠ .ofChar '\n') = true := by
    intro c hc
    have hne : c ≠ .ofChar '\n' := fun h => ht (h ▸ List.mem_reverse.mp hc)
    simpa using hne
  have hr : (s ++ CodePoint.ofChar '\n' :: (t ++ [CodePoint.ofChar '\n'])).reverse.tail =
      t.reverse ++ CodePoint.ofChar '\n' :: s.reverse := by simp
  rw [lastLine, hr, List.takeWhile_append_of_pos hall, List.takeWhile_cons_of_neg (by simp),
    List.append_nil, List.reverse_reverse]

theorem IsWord.newline_notMem (h : IsWord t) : CodePoint.ofChar '\n' ∉ t := by
  intro hm
  have hn := List.any_eq_false.mp h.solid _ hm
  exact hn (by decide)

end

namespace Plan

/-- The arguments of the command that brings the policy file up to date. -/
def rerunArguments (p : Plan) : List Text :=
  p.source :: p.destination :: if p.variant.isStrict then ["--strict"] else []

/-- The words of the line are what leads in, the program and the arguments. -/
theorem words_rerun {p : Plan} (hs : IsWord p.source) (hd : IsWord p.destination) :
    words (("   Run: " : Text) ++ p.rerun) =
      ("Run:" : Text) :: ("policygen" : Text) :: p.rerunArguments := by
  have hspace : isSpace (.ofChar ' ') = true := by decide
  have hline : ("   Run: " : Text) ++ p.rerun = .ofChar ' ' :: .ofChar ' ' :: .ofChar ' ' ::
      (("Run:" : Text) ++ .ofChar ' ' :: (("policygen" : Text) ++ .ofChar ' ' ::
        (p.source ++ .ofChar ' ' :: (p.destination ++
          if p.variant.isStrict then (" --strict" : Text) else [])))) := by
    simp only [rerun, Text.ofString, List.append_assoc]
    rfl
  rw [hline, words_space hspace, words_space hspace, words_space hspace,
    words_append_space (by decide) (by decide) hspace,
    words_append_space (by decide) (by decide) hspace,
    words_append_space hs.ne_nil hs.solid hspace, rerunArguments]
  split
  · have hstrict : (" --strict" : Text) = .ofChar ' ' :: ("--strict" : Text) := by rfl
    rw [hstrict, words_append_space hd.ne_nil hd.solid hspace,
      words_eq_singleton (by decide) (by decide)]
  · rw [List.append_nil, words_eq_singleton hd.ne_nil hd.solid]

theorem newline_notMem_rerun {p : Plan} (hs : IsWord p.source) (hd : IsWord p.destination) :
    CodePoint.ofChar '\n' ∉ ("   Run: " : Text) ++ p.rerun := by
  have hstrict : CodePoint.ofChar '\n' ∉ (if p.variant.isStrict then (" --strict" : Text) else []) := by
    split <;> decide
  have hlead : CodePoint.ofChar '\n' ∉ ("   Run: " : Text) := by decide
  have hprogram : CodePoint.ofChar '\n' ∉ ("policygen " : Text) := by decide
  have hspace : CodePoint.ofChar '\n' ∉ (" " : Text) := by decide
  simp only [rerun, List.mem_append, not_or]
  exact ⟨hlead, ⟨⟨⟨hprogram, hs.newline_notMem⟩, hspace⟩, hd.newline_notMem⟩, hstrict⟩

/-- What a report of drift shows, whatever was logged before. -/
theorem hint_conclude_drift {p : Plan} (hs : IsWord p.source) (hd : IsWord p.destination)
    (destination : Text) (vs : List Violation) (log : Text) :
    let r := p.conclude (.failed (.drift destination vs))
    { r with err := log ++ r.err }.hint = p.rerunArguments := by
  intro r
  have herr : log ++ r.err = (log ++ (("❌ " : Text) ++ (Failure.drift destination vs).message)) ++
      .ofChar '\n' :: ((("   Run: " : Text) ++ p.rerun) ++ [.ofChar '\n']) := by
    simp only [r, conclude, List.append_assoc]
    rfl
  rw [Report.hint, herr, lastLine_append (newline_notMem_rerun hs hd), words_rerun hs hd]
  rfl

end Plan

section

variable {s d : Text}

theorem roleOf_positional (hs : s.head? ≠ some dash) : roleOf s = .ok .positional := by
  rw [roleOf, if_pos (.inl hs)]

theorem ne_separator (hs : s.head? ≠ some dash) : s ≠ separator := by
  rintro rfl
  exact hs rfl

theorem groupValue_singleton (hs : s.head? ≠ some dash) : groupValue [s] = some s := by
  have hn : ¬(s == separator) = true := by simpa using ne_separator hs
  rw [groupValue, List.erase_cons, if_neg hn]
  rfl

end

theorem takeGroup_cons (t : Text) {ps : List Piece} (hps : ps.takeWhile isSeparator = []) :
    takeGroup ((t, .positional) :: ps) = ([t], ps) := by
  have ht : isSeparator (t, .positional) = false := rfl
  have ht' : isPositional (t, .positional) = true := rfl
  simp [takeGroup, ht, ht', hps]

/-- What two paths ask for. -/
def pathArguments (s d : Text) : Arguments :=
  { Arguments.none with source := some s, destination := some d }

/-- Source and destination are taken together. -/
theorem takePositionals_cons_cons {s d : Text} (hs : s.head? ≠ some dash) (hd : d.head? ≠ some dash)
    (ps : List Piece) (hps : ps.takeWhile isSeparator = []) :
    takePositionals .start ((s, .positional) :: (d, .positional) :: ps) =
      (⟨pathArguments s d, false, false, false, []⟩, ps) := by
  have hpending : Reading.start.pending = true := rfl
  have hd' : ((d, .positional) :: ps : List Piece).takeWhile isSeparator = [] := rfl
  rw [takePositionals, if_pos hpending]
  simp only [takeGroup_cons s hd', takeGroup_cons d hps, groupValue_singleton hs,
    groupValue_singleton hd]
  rfl

theorem piecesOf_cons {t : Text} (ht : t.head? ≠ some dash) (ts : List Text) :
    piecesOf (t :: ts) = (fun ps => (t, Role.positional) :: ps) <$> piecesOf ts := by
  rw [piecesOf, if_neg (ne_separator ht), roleOf_positional ht]
  cases piecesOf ts <;> rfl

section

variable {s d : Text}

theorem readArguments_paths (hs : s.head? ≠ some dash) (hd : d.head? ≠ some dash) :
    readArguments [s, d] = .ok (pathArguments s d) := by
  have hread : readFrom 3 .start [(s, .positional), (d, .positional)] =
      .ok ⟨pathArguments s d, false, false, false, []⟩ := by
    rw [readFrom.eq_def]
    simp only [isOption, List.any_cons, List.any_nil, Bool.or_false, Bool.false_eq_true, ↓reduceIte,
      takePositionals_cons_cons hs hd [] rfl, List.map_nil, List.append_nil]
  have hpieces : piecesOf [s, d] = .ok [(s, .positional), (d, .positional)] := by
    rw [piecesOf_cons hs, piecesOf_cons hd]
    rfl
  rw [readArguments, hpieces]
  simp only [List.length_cons, List.length_nil, hread]

theorem readArguments_paths_strict (hs : s.head? ≠ some dash) (hd : d.head? ≠ some dash) :
    readArguments [s, d, "--strict"] =
      .ok { pathArguments s d with variant := some .strict } := by
  have hrole : roleOf "--strict" = .ok (.option .strict .nothing) := by rfl
  have hstrict : ¬("--strict" : Text) = separator := by decide
  have hread : readFrom 4 .start
      [(s, .positional), (d, .positional), ("--strict", .option .strict .nothing)] =
        .ok ⟨{ pathArguments s d with variant := some .strict }, false, false, true, []⟩ := by
    rw [readFrom.eq_def]
    simp only [isOption, List.any_cons, List.any_nil, Bool.or_false, Bool.false_or, ↓reduceIte,
      takePositionals_cons_cons hs hd [("--strict", .option .strict .nothing)] rfl]
    rfl
  have hpieces : piecesOf [s, d, "--strict"] =
      .ok [(s, .positional), (d, .positional), ("--strict", .option .strict .nothing)] := by
    rw [piecesOf_cons hs, piecesOf_cons hd, piecesOf, if_neg hstrict, hrole]
    rfl
  rw [readArguments, hpieces]
  simp only [List.length_cons, List.length_nil, hread]

end

/-- The arguments that are shown ask for the source, the destination and the variant. -/
theorem readArguments_rerunArguments {p : Plan} (hs : p.source.head? ≠ some dash)
    (hd : p.destination.head? ≠ some dash) : readArguments p.rerunArguments = .ok
      { pathArguments p.source p.destination with
        variant := if p.variant.isStrict then some .strict else none } := by
  rw [Plan.rerunArguments]
  cases p.variant.isStrict with
  | false => exact readArguments_paths hs hd
  | true => exact readArguments_paths_strict hs hd

end Allowlist.Command
