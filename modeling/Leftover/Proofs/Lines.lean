/-
# Lines

What is noted during a diagnosis and what an audit finds is written in lines, with the ids and the figures as they are.
A planner has nothing but the line to go by. It tells what kind of note it is, whatever ids stand in it, and it holds the
ids of the vehicle and the job that are concerned; and the line on a limit tells everything about the violation.

* `briefText_isFigure`, `fixedText_isFigure` : the characters of written numbers
* `cut_inj`, `lastCut_inj` : a text is cut in one way at a character that one part does not hold
* `LimitViolation.message_eq_iff` : the line on a limit
* `Warning.Kind`, `Warning.kind_eq_of_message_eq` : the kinds of warnings, which their lines tell
* `Warning.infix_message` : the ids in the line of a warning
-/
import Leftover.Diagnosis.Warning
import Mathlib.Data.List.Infix

namespace Leftover

/-! ## Written numbers -/

/-- A character that numbers are written with, those for special values among them. -/
def IsFigure (c : Char) : Prop := c.isDigit = true ∨ c ∈ ['.', 'e', '+', '-', 'i', 'n', 'f', 'a']

instance (c : Char) : Decidable (IsFigure c) := inferInstanceAs (Decidable (c.isDigit = true ∨ _))

theorem isFigure_of_mem_digitsOf {n : Nat} : ∀ c ∈ Decimal.digitsOf n, IsFigure c :=
  fun _ member => Or.inl (Nat.isDigit_of_mem_toDigits (by decide) (by decide) member)

theorem isFigure_of_mem_zeros {n : Nat} : ∀ c ∈ Decimal.zeros n, IsFigure c := by
  intro c member
  rw [List.eq_of_mem_replicate member]
  exact Or.inl rfl

theorem specialText_isFigure (x : Float) : ∀ c ∈ (specialText x).toList, IsFigure c := by
  rw [specialText]
  split
  · simp [IsFigure]
  · split
    · simp [IsFigure]
    · simp [IsFigure]

section

variable {digits : List Char} (figures : ∀ c ∈ digits, IsFigure c)

include figures

theorem positional_isFigure (wholeMark : Bool) (point : Int) :
    ∀ c ∈ Decimal.positional wholeMark digits point, IsFigure c := by
  have zero : IsFigure '0' := Or.inl rfl
  have dot : IsFigure '.' := Or.inr (by decide)
  unfold Decimal.positional
  split
  · simp only [List.forall_mem_append, List.forall_mem_cons]
    exact ⟨⟨⟨zero, dot, by simp⟩, isFigure_of_mem_zeros⟩, figures⟩
  · dsimp only
    split
    · simp only [List.forall_mem_append]
      refine ⟨⟨figures, isFigure_of_mem_zeros⟩, ?_⟩
      split <;> simp [dot, zero]
    · simp only [List.forall_mem_append, List.forall_mem_cons]
      exact ⟨⟨fun c member => figures c (List.mem_of_mem_take member), dot, by simp⟩,
        fun c member => figures c (List.mem_of_mem_drop member)⟩

theorem scientific_isFigure (power : Int) : ∀ c ∈ Decimal.scientific digits power, IsFigure c := by
  have zero : IsFigure '0' := Or.inl rfl
  have dot : IsFigure '.' := Or.inr (by decide)
  have mark : IsFigure 'e' := Or.inr (by decide)
  have plus : IsFigure '+' := Or.inr (by decide)
  have minus : IsFigure '-' := Or.inr (by decide)
  unfold Decimal.scientific
  simp only [List.forall_mem_append, List.forall_mem_cons]
  refine ⟨⟨?_, mark, ?_, by simp⟩, ?_⟩
  · match digits with
    | [] => simp
    | [d] => exact figures
    | d :: e :: rest =>
      rw [List.forall_mem_cons] at figures
      simp only [List.forall_mem_cons] at figures ⊢
      exact ⟨figures.1, dot, figures.2⟩
  · split
    · exact minus
    · exact plus
  · split
    · exact List.forall_mem_cons.mpr ⟨zero, isFigure_of_mem_digitsOf⟩
    · exact isFigure_of_mem_digitsOf

theorem signed_isFigure (negative : Bool) :
    ∀ c ∈ (String.ofList (if negative then '-' :: digits else digits)).toList, IsFigure c := by
  rw [String.toList_ofList]
  split
  · exact List.forall_mem_cons.mpr ⟨Or.inr (by decide), figures⟩
  · exact figures

end

theorem render_isFigure (style : Decimal.Style) (d : Decimal) : ∀ c ∈ (d.render style).toList, IsFigure c := by
  unfold Decimal.render
  apply signed_isFigure
  generalize (if d.strip.coefficient = 0 then (1 : Int) else _) = point
  split
  · exact positional_isFigure isFigure_of_mem_digitsOf _ _
  · exact scientific_isFigure isFigure_of_mem_digitsOf _

theorem briefText_isFigure (x : Float) : ∀ c ∈ (briefText x).toList, IsFigure c := by
  unfold briefText
  split
  · exact specialText_isFigure x
  · exact render_isFigure _ _

theorem fixedText_isFigure (places : Nat) (x : Float) : ∀ c ∈ (fixedText places x).toList, IsFigure c := by
  unfold fixedText
  split
  · exact specialText_isFigure x
  · rename_i d _
    have figures : ∀ c ∈ Decimal.zeros (places + 1 - (Decimal.digitsOf
        (roundDiv (d.numerator * tenTo places) d.denominator)).length)
          ++ Decimal.digitsOf (roundDiv (d.numerator * tenTo places) d.denominator), IsFigure c :=
      List.forall_mem_append.mpr ⟨isFigure_of_mem_zeros, isFigure_of_mem_digitsOf⟩
    apply signed_isFigure
    split
    · exact fun c member => figures c (List.mem_of_mem_take member)
    · refine List.forall_mem_append.mpr ⟨fun c member => figures c (List.mem_of_mem_take member), ?_⟩
      exact List.forall_mem_cons.mpr ⟨Or.inr (by decide), fun c member => figures c (List.mem_of_mem_drop member)⟩

theorem figureText_isFigure (x : Float) : ∀ c ∈ (figureText x).toList, IsFigure c := by
  unfold figureText
  split
  · rename_i n _
    cases n with
    | ofNat n =>
      have written : (toString (Int.ofNat n)).toList = Decimal.digitsOf n := String.toList_ofList
      rw [written]
      exact isFigure_of_mem_digitsOf
    | negSucc n =>
      have written : (toString (Int.negSucc n)).toList = '-' :: Decimal.digitsOf (n + 1) := by
        show ("-" ++ String.ofList (Decimal.digitsOf (n + 1))).toList = _
        simp only [String.toList_append, String.toList_ofList]
        rfl
      rw [written]
      exact List.forall_mem_cons.mpr ⟨Or.inr (by decide), isFigure_of_mem_digitsOf⟩
  · exact fixedText_isFigure 2 x

/-! ## Cutting texts -/

section

variable {γ : Type} {a : γ} {xs xs' ys ys' : List γ}

/-- A list is cut in one way at the first occurrence of an item. -/
theorem cut_inj (absent : a ∉ xs) (absent' : a ∉ xs') (same : xs ++ a :: ys = xs' ++ a :: ys') : xs = xs' ∧ ys = ys' := by
  induction xs generalizing xs' with
  | nil =>
    cases xs' with
    | nil => exact ⟨rfl, (List.cons.inj same).2⟩
    | cons x' xs' => exact absurd List.mem_cons_self ((List.cons.inj same).1 ▸ absent')
  | cons x xs ih =>
    cases xs' with
    | nil => exact absurd List.mem_cons_self ((List.cons.inj same).1 ▸ absent)
    | cons x' xs' =>
      obtain ⟨rfl, later⟩ := List.cons.inj same
      obtain ⟨rfl, rfl⟩ := ih (List.not_mem_of_not_mem_cons absent) (List.not_mem_of_not_mem_cons absent') later
      exact ⟨rfl, rfl⟩

/-- A list is cut in one way at the last occurrence of an item. -/
theorem lastCut_inj (absent : a ∉ ys) (absent' : a ∉ ys') (same : xs ++ a :: ys = xs' ++ a :: ys') :
    xs = xs' ∧ ys = ys' := by
  have reversed : ys.reverse ++ a :: xs.reverse = ys'.reverse ++ a :: xs'.reverse := by
    simpa using congrArg List.reverse same
  obtain ⟨later, earlier⟩ := cut_inj (by simpa using absent) (by simpa using absent') reversed
  exact ⟨List.reverse_inj.mp earlier, List.reverse_inj.mp later⟩

end

theorem CodePoint.ofChar_inj {c d : Char} : ofChar c = ofChar d ↔ c = d := by
  refine ⟨fun same => ?_, congrArg ofChar⟩
  have chars := congrArg toChar? same
  rw [Text.toChar?_ofChar, Text.toChar?_ofChar] at chars
  exact Option.some.inj chars

namespace Text

theorem points_append (t u : Text) : (t ++ u).points = t.points ++ u.points := rfl

theorem points_ofString (s : String) : (ofString s).points = s.toList.map .ofChar := rfl

theorem points_ofString_inj {s t : String} : (ofString s).points = (ofString t).points ↔ s = t := by
  rw [points_ofString, points_ofString, List.map_inj_right fun _ _ => CodePoint.ofChar_inj.mp, String.toList_inj]

theorem mem_points_ofString {c : Char} {s : String} : CodePoint.ofChar c ∈ (ofString s).points ↔ c ∈ s.toList := by
  rw [points_ofString, List.mem_map]
  constructor
  · rintro ⟨d, member, same⟩
    exact CodePoint.ofChar_inj.mp same ▸ member
  · exact fun member => ⟨c, member, rfl⟩

end Text

theorem not_isFigure_comma : ¬IsFigure ',' := by decide

theorem not_isFigure_space : ¬IsFigure ' ' := by decide

theorem not_isFigure_bracket : ¬IsFigure ']' := by decide

/-! ## Limits -/

theorem Limit.name_inj {l l' : Limit} : l.name = l'.name ↔ l = l' := by
  cases l <;> cases l' <;> decide

namespace LimitViolation

/-- The line on a limit has four parts with commas between them. -/
theorem points_message (v : LimitViolation Float) : v.message.points
    = (Text.ofString (v.limit.name ++ " limit violation")).points
      ++ .ofChar ',' :: ((Text.ofString (" expected: not more than " ++ figureText v.expected)).points
      ++ .ofChar ',' :: ((Text.ofString (" got: " ++ figureText v.actual)).points
      ++ .ofChar ',' :: ((Text.ofString " vehicle id '").points ++ v.vehicleId.points ++ [.ofChar '\'']))) := by
  simp [message, limitText, Text.points_append, Text.points_ofString, String.toList_append]

/-- The line on a limit tells which limit of which vehicle is exceeded, and both figures as they are written. -/
theorem message_eq_iff {v v' : LimitViolation Float} : v.message = v'.message ↔
    v.limit = v'.limit ∧ figureText v.expected = figureText v'.expected
      ∧ figureText v.actual = figureText v'.actual ∧ v.vehicleId = v'.vehicleId := by
  constructor
  · intro same
    have named : ∀ v : LimitViolation Float,
        CodePoint.ofChar ',' ∉ (Text.ofString (v.limit.name ++ " limit violation")).points := by
      intro v
      rw [Text.mem_points_ofString]
      cases v.limit <;> decide
    have absent : ∀ before : String, ',' ∉ before.toList → ∀ x : Float,
        CodePoint.ofChar ',' ∉ (Text.ofString (before ++ figureText x)).points := by
      intro before absent x
      rw [Text.mem_points_ofString, String.toList_append, List.mem_append, not_or]
      exact ⟨absent, fun member => not_isFigure_comma (figureText_isFigure x _ member)⟩
    have points := congrArg Text.points same
    rw [points_message, points_message] at points
    obtain ⟨limit, points⟩ := cut_inj (named v) (named v') points
    obtain ⟨expected, points⟩ := cut_inj (absent _ (by decide) _) (absent _ (by decide) _) points
    obtain ⟨actual, points⟩ := cut_inj (absent _ (by decide) _) (absent _ (by decide) _) points
    rw [Text.points_ofString_inj] at limit expected actual
    rw [List.append_cancel_right_eq, List.append_cancel_left_eq] at points
    exact ⟨Limit.name_inj.mp ((String.append_left_inj _).mp limit), (String.append_right_inj _).mp expected,
      (String.append_right_inj _).mp actual, congrArg Text.mk points⟩
  · rintro ⟨limit, expected, actual, vehicle⟩
    rw [message, message, limit, expected, actual, vehicle]

end LimitViolation

/-! ## Warnings -/

theorem Figure.name_inj {f f' : Figure} : f.name = f'.name ↔ f = f' := by
  cases f <;> cases f' <;> decide

/-- What a warning is about, ids and numbers left out. -/
inductive Warning.Kind : Type where
  | limit (limit : Limit)
  | limitCount
  | brokenRoute
  | figureDrift (figure : Figure)
  | loadDrift
  | notEvaluable (code : Reason)
  | duplicates
  | interrupted
  | failed
  deriving DecidableEq

namespace Warning.Kind

/-- All kinds. -/
def all : List Kind :=
  [.distance, .shiftTime, .tourSize].map limit ++ [.arrival, .departure, .distance].map figureDrift
    ++ Reason.all.map notEvaluable ++ [limitCount, brokenRoute, loadDrift, duplicates, interrupted, failed]

theorem mem_all (k : Kind) : k ∈ all := by
  cases k with
  | limit l => cases l <;> decide
  | figureDrift f => cases f <;> decide
  | notEvaluable code => cases code <;> decide
  | limitCount | brokenRoute | loadDrift | duplicates | interrupted | failed => decide

/-- The text with which the line of a warning begins. -/
def opening : Kind → String
  | limit l => l.name ++ " limit violation"
  | limitCount => "Solution audit found "
  | brokenRoute => "Route of vehicle "
  | figureDrift _ | loadDrift => "Vehicle "
  | notEvaluable code => code.name ++ " not evaluable"
  | duplicates => "Dropped "
  | interrupted | failed => "Evaluation of job "

/-- The warning is about what is reported for a stop. -/
def isDrift : Kind → Bool
  | figureDrift _ | loadDrift => true
  | _ => false

/-- The warning is about an evaluation that came to nothing. -/
def isBreakOff : Kind → Bool
  | interrupted | failed => true
  | _ => false

/-- No opening begins with that of another kind, but for kinds that share theirs. -/
theorem opening_cases {k k' : Kind}
    (before : (Text.ofString k.opening).points <+: (Text.ofString k'.opening).points) :
    k = k' ∨ (k.isDrift = true ∧ k'.isDrift = true) ∨ k.isBreakOff = true ∧ k'.isBreakOff = true := by
  have apart : ∀ k ∈ all, ∀ k' ∈ all, (Text.ofString k.opening).points <+: (Text.ofString k'.opening).points →
      k = k' ∨ (k.isDrift = true ∧ k'.isDrift = true) ∨ k.isBreakOff = true ∧ k'.isBreakOff = true := by
    decide +kernel
  exact apart k k.mem_all k' k'.mem_all before

end Warning.Kind

namespace Warning

/-- What a warning is about. -/
def kind {α : Type} : Warning α → Kind
  | limit violation => .limit violation.limit
  | limitCount _ => .limitCount
  | brokenRoute _ => .brokenRoute
  | figureDrift _ _ figure _ _ => .figureDrift figure
  | loadDrift _ _ _ _ => .loadDrift
  | notEvaluable code _ _ _ => .notEvaluable code
  | duplicates _ => .duplicates
  | interrupted _ => .interrupted
  | failed _ => .failed

/-- The vehicle and the job that a warning names. -/
def ids {α : Type} : Warning α → List Text
  | limit violation => [violation.vehicleId]
  | limitCount _ | duplicates _ => []
  | brokenRoute vehicleId => [vehicleId]
  | figureDrift vehicleId jobId _ _ _ | loadDrift vehicleId jobId _ _ => [vehicleId, jobId]
  | notEvaluable _ jobId vehicleId _ => [jobId, vehicleId]
  | interrupted jobId | failed jobId => [jobId]

/-- The line of a warning begins with the opening of its kind. -/
theorem opening_prefix (w : Warning Float) : (Text.ofString w.kind.opening).points <+: w.message.points := by
  cases w with
  | limit violation =>
    rw [message, LimitViolation.points_message]
    exact List.prefix_append _ _
  | limitCount | brokenRoute | figureDrift | loadDrift | notEvaluable | duplicates | interrupted | failed =>
    simp [kind, Kind.opening, message, Fault.message, Text.points_append, Text.points_ofString, String.toList_append]

theorem eq_of_isDrift {w : Warning Float} (drift : w.kind.isDrift = true) :
    (∃ vehicleId jobId figure reported workedOut, w = .figureDrift vehicleId jobId figure reported workedOut)
      ∨ ∃ vehicleId jobId reported workedOut, w = .loadDrift vehicleId jobId reported workedOut := by
  cases w with
  | figureDrift => exact Or.inl ⟨_, _, _, _, _, rfl⟩
  | loadDrift => exact Or.inr ⟨_, _, _, _, rfl⟩
  | limit | limitCount | brokenRoute | notEvaluable | duplicates | interrupted | failed =>
    exact absurd drift Bool.false_ne_true

theorem eq_of_isBreakOff {w : Warning Float} (off : w.kind.isBreakOff = true) :
    (∃ jobId, w = .interrupted jobId) ∨ ∃ jobId, w = .failed jobId := by
  cases w with
  | interrupted => exact Or.inl ⟨_, rfl⟩
  | failed => exact Or.inr ⟨_, rfl⟩
  | limit | limitCount | brokenRoute | figureDrift | loadDrift | notEvaluable | duplicates =>
    exact absurd off Bool.false_ne_true

/-- The part of a line that names a stop. -/
def stopText (vehicleId jobId : Text) : Text := "Vehicle " ++ vehicleId ++ " stop " ++ jobId

theorem points_figureDrift (vehicleId jobId : Text) (figure : Figure) (reported workedOut : Float) :
    (message (.figureDrift vehicleId jobId figure reported workedOut)).points
      = ((((stopText vehicleId jobId).points ++ (Text.ofString ": reported").points)
        ++ .ofChar ' ' :: (Text.ofString figure.name).points)
        ++ .ofChar ' ' :: (Text.ofString (briefText reported)).points ++ (Text.ofString ", recomputed").points)
        ++ .ofChar ' ' :: (Text.ofString (briefText workedOut)).points := by
  simp [message, stopText, Text.points_append, Text.points_ofString]

theorem points_loadDrift (vehicleId jobId : Text) (reported workedOut : List Float) :
    ∃ told, (message (.loadDrift vehicleId jobId reported workedOut)).points
      = (stopText vehicleId jobId).points ++ told ++ [.ofChar ']'] := by
  refine ⟨(Text.ofString (": reported load " ++ loadText reported ++ ", recomputed [" ++ ", ".intercalate
    (workedOut.map shortestText))).points, ?_⟩
  simp [message, stopText, loadText, bracketed, Text.points_append, Text.points_ofString, String.toList_append]

/-- The line on a figure tells which figure it is, and both of its values as they are written. -/
theorem figureDrift_message_inj {vehicleId jobId vehicleId' jobId' : Text} {figure figure' : Figure}
    {reported workedOut reported' workedOut' : Float}
    (same : (message (.figureDrift vehicleId jobId figure reported workedOut))
      = message (.figureDrift vehicleId' jobId' figure' reported' workedOut')) :
    figure = figure' ∧ briefText reported = briefText reported' ∧ briefText workedOut = briefText workedOut' := by
  have noSpace : ∀ x : Float, CodePoint.ofChar ' ' ∉ (Text.ofString (briefText x)).points := by
    intro x
    rw [Text.mem_points_ofString]
    exact fun member => not_isFigure_space (briefText_isFigure x _ member)
  have noSpace' : ∀ f : Figure, CodePoint.ofChar ' ' ∉ (Text.ofString f.name).points := by
    intro f
    rw [Text.mem_points_ofString]
    cases f <;> decide
  have points := congrArg Text.points same
  rw [points_figureDrift, points_figureDrift] at points
  -- the line is cut from its end
  obtain ⟨points, value⟩ := lastCut_inj (noSpace _) (noSpace _) points
  rw [List.append_cancel_right_eq] at points
  obtain ⟨points, value'⟩ := lastCut_inj (noSpace _) (noSpace _) points
  obtain ⟨-, name⟩ := lastCut_inj (noSpace' _) (noSpace' _) points
  rw [Text.points_ofString_inj] at value value' name
  exact ⟨Figure.name_inj.mp name, value', value⟩

/-- The line on a figure does not end as that on a load does. -/
theorem figureDrift_message_ne (vehicleId jobId : Text) (figure : Figure) (reported workedOut : Float)
    {vehicleId' jobId' : Text} {reported' workedOut' : List Float} :
    message (.figureDrift vehicleId jobId figure reported workedOut)
      ≠ message (.loadDrift vehicleId' jobId' reported' workedOut') := by
  intro same
  obtain ⟨told, line⟩ := points_loadDrift vehicleId' jobId' reported' workedOut'
  have points := congrArg Text.points same
  rw [points_figureDrift, line] at points
  have last := congrArg List.getLast? points
  rw [List.getLast?_concat, List.getLast?_append_of_ne_nil _ (List.cons_ne_nil _ _)] at last
  rcases List.mem_cons.mp (List.mem_of_getLast? last) with space | figure
  · exact absurd (CodePoint.ofChar_inj.mp space) (by decide)
  · exact not_isFigure_bracket (briefText_isFigure _ _ (Text.mem_points_ofString.mp figure))

/-- The lines on an evaluation that is interrupted and on one that fails end differently. -/
theorem interrupted_message_ne {jobId jobId' : Text} :
    message (.interrupted jobId) ≠ message (.failed jobId' : Warning Float) := by
  intro same
  have ends : (message (.interrupted jobId)).points.getLast? = some (.ofChar 'e') := by
    show (_ ++ (Text.ofString "' interrupted by deadline").points).getLast? = _
    rw [List.getLast?_append]
    rfl
  have ends' : (message (.failed jobId')).points.getLast? = some (.ofChar 'd') := by
    show (_ ++ (Text.ofString " failed").points).getLast? = _
    rw [List.getLast?_append]
    rfl
  rw [same, ends', Option.some.injEq] at ends
  exact absurd (CodePoint.ofChar_inj.mp ends) (by decide)

/-- The line of a warning tells its kind, whatever ids and numbers it holds. -/
theorem kind_eq_of_message_eq {w w' : Warning Float} (same : w.message = w'.message) : w.kind = w'.kind := by
  have before := w.opening_prefix
  have before' := w'.opening_prefix
  rw [← same] at before'
  have told : w.kind = w'.kind ∨ (w.kind.isDrift = true ∧ w'.kind.isDrift = true)
      ∨ w.kind.isBreakOff = true ∧ w'.kind.isBreakOff = true := by
    rcases List.prefix_or_prefix_of_prefix before before' with shorter | shorter
    · exact Kind.opening_cases shorter
    · exact (Kind.opening_cases shorter).imp Eq.symm (Or.imp And.symm And.symm)
  rcases told with kind | ⟨drift, drift'⟩ | ⟨off, off'⟩
  · exact kind
  · rcases eq_of_isDrift drift with ⟨v, j, f, r, x, rfl⟩ | ⟨v, j, r, x, rfl⟩
    · rcases eq_of_isDrift drift' with ⟨v', j', f', r', x', rfl⟩ | ⟨v', j', r', x', rfl⟩
      · rw [kind, kind, (figureDrift_message_inj same).1]
      · exact absurd same (figureDrift_message_ne v j f r x)
    · rcases eq_of_isDrift drift' with ⟨v', j', f', r', x', rfl⟩ | ⟨v', j', r', x', rfl⟩
      · exact absurd same.symm (figureDrift_message_ne v' j' f' r' x')
      · rfl
  · rcases eq_of_isBreakOff off with ⟨j, rfl⟩ | ⟨j, rfl⟩
    · rcases eq_of_isBreakOff off' with ⟨j', rfl⟩ | ⟨j', rfl⟩
      · rfl
      · exact absurd same interrupted_message_ne
    · rcases eq_of_isBreakOff off' with ⟨j', rfl⟩ | ⟨j', rfl⟩
      · exact absurd same.symm interrupted_message_ne
      · rfl

theorem infix_stopText {vehicleId jobId id : Text} (named : id ∈ [vehicleId, jobId]) :
    id.points <:+: (stopText vehicleId jobId).points := by
  rw [stopText, Text.points_append, Text.points_append, Text.points_append]
  rcases List.mem_cons.mp named with rfl | named
  · exact List.infix_append_of_infix_left (List.infix_append _ _ _)
  · rw [List.mem_singleton.mp named]
    exact (List.suffix_append _ _).isInfix

/-- The line of a warning holds the ids that it names. -/
theorem infix_message {w : Warning Float} {id : Text} (named : id ∈ w.ids) : id.points <:+: w.message.points := by
  cases w with
  | limitCount | duplicates => exact absurd named List.not_mem_nil
  | limit | brokenRoute | interrupted | failed =>
    rw [List.mem_singleton.mp named]
    exact List.infix_append _ _ _
  | figureDrift vehicleId jobId figure reported workedOut =>
    rw [points_figureDrift, List.append_assoc, List.append_assoc, List.append_assoc, List.append_assoc]
    exact List.infix_append_of_infix_left (infix_stopText named)
  | loadDrift vehicleId jobId reported workedOut =>
    obtain ⟨told, line⟩ := points_loadDrift vehicleId jobId reported workedOut
    rw [line, List.append_assoc]
    exact List.infix_append_of_infix_left (infix_stopText named)
  | notEvaluable code jobId vehicleId position =>
    have line : (message (.notEvaluable code jobId vehicleId position)).points
        = (Text.ofString (code.name ++ " not evaluable for job ")).points ++ jobId.points
          ++ (Text.ofString " on vehicle ").points ++ vehicleId.points
          ++ (Text.ofString (" at position " ++ toString position)).points := by
      simp [message, Text.points_append, Text.points_ofString]
    rw [line]
    rcases List.mem_cons.mp named with rfl | named
    · exact List.infix_append_of_infix_left (List.infix_append_of_infix_left (List.infix_append _ _ _))
    · rw [List.mem_singleton.mp named]
      exact List.infix_append _ _ _

end Warning

end Leftover
