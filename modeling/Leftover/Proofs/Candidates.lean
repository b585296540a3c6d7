/-
# The record that is picked

Of the violated records of a job those of one reason are candidates, and of the candidates one is picked that no other
one beats. So it does not matter in which order the records stand, unless candidates tie, and records of constraints that
are kept do not matter at all.

* `Precedes` : the order of vehicles by their place in the fleet
* `Beats` : one candidate is preferred to another
* `JobEvaluation.Decides` : the reason whose records are candidates
* `Resolves` : what a job may be resolved to, with one case for each way to come to it
* `resolve_resolves` : what a job is resolved to is of this kind
* `resolve_picks_unbeaten` : the reason, the record and the faults, and what they do not depend on
-/
import Leftover.Proofs.Modes
import Leftover.Proofs.Records
import Leftover.Proofs.Scale

namespace Leftover

/-! ## Places in a fleet -/

/-- A vehicle stands before another one in a fleet. Those that are not part of it, and the lack of a vehicle, stand after
all that are. -/
inductive Precedes (fleet : List Text) : Option Text → Option Text → Prop
  | listed {x y : Text} {i j : Nat} (hx : fleet[i]? = some x) (hy : fleet[j]? = some y) (lt : i < j) :
    Precedes fleet (some x) (some y)
  | unlisted {x : Text} {b : Option Text} (hx : x ∈ fleet) (hb : ∀ y ∈ b, y ∉ fleet) : Precedes fleet (some x) b

/-- A name that is not listed has the place of no name. -/
theorem placeIn_of_unlisted {names : List Text} {a : Option Text} (unlisted : ∀ name ∈ a, name ∉ names) :
    placeIn names a = placeIn names none := by
  cases a with
  | none => rfl
  | some name =>
    have absent : lastOf? names.zipIdx name = none := by
      rw [Option.eq_none_iff_forall_ne_some]
      intro k found
      exact unlisted name rfl (List.fst_mem_of_mem_zipIdx (mem_of_lastOf? found))
    rw [placeIn, placeIn, Option.bind_some, absent]
    rfl

/-- Vehicles are preferred in the order in which they stand in the fleet. -/
theorem placeIn_lt_iff {fleet : List Text} (distinct : fleet.Nodup) {a b : Option Text} :
    placeIn fleet a < placeIn fleet b ↔ Precedes fleet a b := by
  constructor
  · intro before
    by_cases unlisted : ∀ name ∈ a, name ∉ fleet
    · -- nothing stands after the lack of a vehicle
      have last : placeIn fleet b ≤ placeIn fleet none := by
        by_cases unlisted' : ∀ name ∈ b, name ∉ fleet
        · rw [placeIn_of_unlisted unlisted']
        · obtain ⟨y, rfl, hy⟩ : ∃ y, b = some y ∧ y ∈ fleet := by simpa using unlisted'
          exact Nat.le_of_lt (placeIn_lt distinct hy)
      rw [placeIn_of_unlisted unlisted] at before
      omega
    · obtain ⟨x, rfl, hx⟩ : ∃ x, a = some x ∧ x ∈ fleet := by simpa using unlisted
      by_cases unlisted' : ∀ name ∈ b, name ∉ fleet
      · exact .unlisted hx unlisted'
      · obtain ⟨y, rfl, hy⟩ : ∃ y, b = some y ∧ y ∈ fleet := by simpa using unlisted'
        obtain ⟨i, stands⟩ := List.mem_iff_getElem?.mp hx
        obtain ⟨j, stands'⟩ := List.mem_iff_getElem?.mp hy
        rw [placeIn_some distinct stands, placeIn_some distinct stands'] at before
        exact .listed stands stands' before
  · intro precedes
    cases precedes with
    | listed hx hy lt =>
      rw [placeIn_some distinct hx, placeIn_some distinct hy]
      exact lt
    | unlisted hx hb =>
      rw [placeIn_of_unlisted hb]
      exact placeIn_lt distinct hx

variable {α : Type} [Quantity α]

/-! ## Candidates -/

/-- The constraint of a record is violated. -/
def Record.IsViolated (r : Record α) : Prop := ∃ severity, r.evidence = .violated severity

/-- A record is preferred to another. The nearest miss is the record with the milder severity, and with severities as
severe the one whose vehicle stands first in the fleet; otherwise only the place of the vehicle counts. -/
inductive Beats (fleet : List Text) : TieBreak → Record α → Record α → Prop
  | milder {a b : Record α} (milder : Milder a.evidence.severity b.evidence.severity) : Beats fleet .nearestMiss a b
  | nearer {a b : Record α} (level : AsSevere a.evidence.severity b.evidence.severity)
      (precedes : Precedes fleet a.vehicleId b.vehicleId) : Beats fleet .nearestMiss a b
  | first {a b : Record α} (precedes : Precedes fleet a.vehicleId b.vehicleId) : Beats fleet .fleetOrder a b

section

variable [OrderedQuantity α] {policy : TieBreak} {fleet : List Text} {a b c : Record α}

theorem compareCandidate_eq_lt (distinct : fleet.Nodup) (ha : IsComparable a.evidence.severity)
    (hb : IsComparable b.evidence.severity) : compareCandidate policy fleet a b = .lt ↔ Beats fleet policy a b := by
  cases policy with
  | fleetOrder =>
    show compare _ _ = .lt ↔ _
    rw [Nat.compare_eq_lt, placeIn_lt_iff distinct]
    constructor
    · exact .first
    · intro beats
      cases beats with
      | first precedes => exact precedes
  | nearestMiss =>
    show (compareSeverity _ _).then (compare _ _) = .lt ↔ _
    rw [Ordering.then_eq_lt, compareSeverity_eq_lt, compareSeverity_eq_eq ha hb, Nat.compare_eq_lt, placeIn_lt_iff distinct]
    constructor
    · rintro (milder | ⟨level, precedes⟩)
      · exact .milder milder
      · exact .nearer level precedes
    · intro beats
      cases beats with
      | milder milder => exact Or.inl milder
      | nearer level precedes => exact Or.inr ⟨level, precedes⟩

theorem Precedes.asymm {fleet : List Text} (distinct : fleet.Nodup) {a b : Option Text} (before : Precedes fleet a b) :
    ¬Precedes fleet b a := by
  rw [← placeIn_lt_iff distinct] at before ⊢
  omega

theorem Beats.asymm (distinct : fleet.Nodup) (beats : Beats fleet policy a b) : ¬Beats fleet policy b a := by
  intro beaten
  cases beats with
  | milder milder =>
    cases beaten with
    | milder milder' => exact milder.asymm milder'
    | nearer level' _ => exact level'.2 milder
  | nearer level precedes =>
    cases beaten with
    | milder milder' => exact level.2 milder'
    | nearer _ precedes' => exact precedes.asymm distinct precedes'
  | first precedes =>
    cases beaten with
    | first precedes' => exact precedes.asymm distinct precedes'

/-- If a candidate is not beaten by a second one, and this one not by a third one, then the third one does not beat the
first. -/
theorem not_beats_trans (distinct : fleet.Nodup) (ha : IsComparable a.evidence.severity)
    (hb : IsComparable b.evidence.severity) (hc : IsComparable c.evidence.severity) (ba : ¬Beats fleet policy b a)
    (cb : ¬Beats fleet policy c b) : ¬Beats fleet policy c a := by
  have not_precedes {x y z : Option Text} (yx : ¬Precedes fleet y x) (zy : ¬Precedes fleet z y) : ¬Precedes fleet z x := by
    rw [← placeIn_lt_iff distinct] at yx zy ⊢
    omega
  intro ca
  cases ca with
  | first precedes => exact not_precedes (mt .first ba) (mt .first cb) precedes
  | milder milder =>
    exact not_milder_trans ha hb hc (mt .milder ba) (mt .milder cb) milder
  | nearer level precedes =>
    -- none of the three is milder than another one
    have not_ba : ¬Milder b.evidence.severity a.evidence.severity := mt .milder ba
    have not_cb : ¬Milder c.evidence.severity b.evidence.severity := mt .milder cb
    have not_ab : ¬Milder a.evidence.severity b.evidence.severity :=
      fun ab => level.2 (ab.trans_not ha hb hc not_cb)
    have not_bc : ¬Milder b.evidence.severity c.evidence.severity :=
      fun bc => not_ba (bc.trans_not hb hc ha level.2)
    exact not_precedes (fun yx => ba (.nearer ⟨not_ba, not_ab⟩ yx)) (fun zy => cb (.nearer ⟨not_cb, not_bc⟩ zy)) precedes

end

/-! ## The reason that decides -/

namespace JobEvaluation

/-- Some vehicles were evaluated, and as many are out of reach. -/
def AllOutOfReach (e : JobEvaluation α) : Prop :=
  e.vehiclesEvaluated ≠ [] ∧ e.unreachableVehicles.length = e.vehiclesEvaluated.length

/-- A violated record of a reason. -/
def IsCandidate (e : JobEvaluation α) (c : Reason) (r : Record α) : Prop := r ∈ e.records ∧ r.IsViolated ∧ r.code = c

/-- The reason whose records are candidates: reachability if all vehicles are out of reach, else the first in priority
order of the reasons of violated records. -/
def Decides (e : JobEvaluation α) (c : Reason) : Prop :=
  (e.AllOutOfReach ∧ c = .reachable)
    ∨ (¬e.AllOutOfReach ∧ (∃ r, e.IsCandidate c r) ∧ ∀ d r, e.IsCandidate d r → c.rank ≤ d.rank)

/-- A candidate is picked that no other one beats. -/
def IsPick (e : JobEvaluation α) (policy : TieBreak) (fleet : List Text) (c : Reason) (r : Record α) : Prop :=
  e.IsCandidate c r ∧ ∀ s, e.IsCandidate c s → ¬Beats fleet policy s r

/-- Of two different candidates one beats the other. -/
def IsUntied (e : JobEvaluation α) (policy : TieBreak) (fleet : List Text) : Prop :=
  ∀ c, e.Decides c → ∀ r s, e.IsCandidate c r → e.IsCandidate c s → r ≠ s → Beats fleet policy r s ∨ Beats fleet policy s r

/-- The violated records of a job. -/
def violated (e : JobEvaluation α) : List (Record α) := e.records.filter fun r => !r.evidence.isSatisfied

end JobEvaluation

/-- What a job may be resolved to: to no reason if no record is violated; else to the reason that decides, with the
vehicle and the severity of a candidate that is picked; and to a fault if there is no candidate. -/
inductive Resolves (policy : TieBreak) (fleet : List Text) (e : JobEvaluation α) : Except Fault (Resolution α) → Prop
  | unexplained (kept : ∀ r ∈ e.records, ¬r.IsViolated) : Resolves policy fleet e (.ok .unknown)
  | picked {c : Reason} {r : Record α} (decides : e.Decides c) (pick : e.IsPick policy fleet c r) :
    Resolves policy fleet e (.ok ⟨c, c.description, r.vehicleId, r.evidence.severity⟩)
  | missing {c : Reason} (violated : ∃ r ∈ e.records, r.IsViolated) (decides : e.Decides c)
      (none : ∀ r, ¬e.IsCandidate c r) : Resolves policy fleet e (.error .noCandidate)

theorem Record.isViolated_iff {r : Record α} : (!r.evidence.isSatisfied) = true ↔ r.IsViolated := by
  unfold IsViolated
  cases r.evidence with
  | satisfied => simp [Evidence.isSatisfied]
  | violated severity => simp [Evidence.isSatisfied]

namespace JobEvaluation

variable {e : JobEvaluation α} {c d : Reason} {first r : Record α} {rest : List (Record α)}

omit [Quantity α] in
theorem allUnreachable_iff : e.allUnreachable = true ↔ e.AllOutOfReach := by
  simp [allUnreachable, AllOutOfReach]

theorem mem_violated : r ∈ e.violated ↔ r ∈ e.records ∧ r.IsViolated := by
  rw [violated, List.mem_filter, Record.isViolated_iff]

theorem violated_eq_nil : e.violated = [] ↔ ∀ r ∈ e.records, ¬r.IsViolated := by
  simp only [List.eq_nil_iff_forall_not_mem, mem_violated, not_and]

theorem mem_filter_violated : r ∈ e.violated.filter (·.code = c) ↔ e.IsCandidate c r := by
  rw [List.mem_filter, mem_violated, decide_eq_true_iff, and_assoc, IsCandidate]

omit [Quantity α] in
theorem Decides.unique (h : e.Decides c) (h' : e.Decides d) : c = d := by
  rcases h with ⟨all, rfl⟩ | ⟨reached, ⟨r, candidate⟩, least⟩
  · rcases h' with ⟨-, rfl⟩ | ⟨reached, -⟩
    · rfl
    · exact absurd all reached
  · rcases h' with ⟨all, -⟩ | ⟨-, ⟨s, candidate'⟩, least'⟩
    · exact absurd all reached
    · exact Reason.eq_of_rank_eq (Nat.le_antisymm (least d s candidate') (least' c r candidate))

/-- The winning reason is the one that decides. -/
theorem decides_winningCode (found : e.violated = first :: rest) : e.Decides (winningCode e first rest) := by
  have listed : ∀ r, r ∈ first :: rest ↔ r ∈ e.records ∧ r.IsViolated := fun r => found ▸ mem_violated
  by_cases all : e.AllOutOfReach
  · refine Or.inl ⟨all, ?_⟩
    rw [winningCode, if_pos (allUnreachable_iff.mpr all)]
  · have reached : e.allUnreachable = false := by
      rw [← Bool.not_eq_true, allUnreachable_iff]
      exact all
    obtain ⟨member, least⟩ := winningCode_isFirstOf reached first rest
    obtain ⟨r, among, same⟩ := List.mem_map.mp member
    obtain ⟨given, violated⟩ := (listed r).mp among
    refine Or.inr ⟨all, ⟨r, given, violated, same⟩, ?_⟩
    rintro d s ⟨given', violated', rfl⟩
    exact least _ (List.mem_map_of_mem ((listed s).mpr ⟨given', violated'⟩))

end JobEvaluation

/-! ## Resolving -/

section

variable {policy : TieBreak} {fleet : List Text} {e : JobEvaluation α} {first : Record α} {rest : List (Record α)}

theorem resolve_of_kept (none : e.violated = []) : resolve policy fleet e = .ok .unknown := by
  have none : e.records.filter (fun r => !r.evidence.isSatisfied) = [] := none
  rw [resolve, none]

theorem resolve_of_missing (found : e.violated = first :: rest)
    (none : e.violated.filter (·.code = winningCode e first rest) = []) :
    resolve policy fleet e = .error .noCandidate := by
  rw [found] at none
  have found : e.records.filter (fun r => !r.evidence.isSatisfied) = first :: rest := found
  rw [resolve, found]
  simp only [none]

theorem resolve_of_candidates (found : e.violated = first :: rest) {r : Record α} {others : List (Record α)}
    (candidates : e.violated.filter (·.code = winningCode e first rest) = r :: others) :
    resolve policy fleet e
      = .ok ⟨winningCode e first rest, (winningCode e first rest).description,
          (firstLeast (compareCandidate policy fleet) r others).vehicleId,
          (firstLeast (compareCandidate policy fleet) r others).evidence.severity⟩ := by
  rw [found] at candidates
  have found : e.records.filter (fun r => !r.evidence.isSatisfied) = first :: rest := found
  rw [resolve, found]
  simp only [candidates]

/-- Only violated records matter. -/
theorem resolve_of_violated_eq {records : List (Record α)} (same : ({ e with records } : JobEvaluation α).violated = e.violated) :
    resolve policy fleet { e with records } = resolve policy fleet e := by
  cases found : e.violated with
  | nil => rw [resolve_of_kept found, resolve_of_kept (same.trans found)]
  | cons first rest =>
    have code : winningCode { e with records } first rest = winningCode e first rest := rfl
    cases candidates : e.violated.filter (·.code = winningCode e first rest) with
    | nil => rw [resolve_of_missing found candidates, resolve_of_missing (same.trans found) (by rw [same, code, candidates])]
    | cons r others =>
      rw [resolve_of_candidates found candidates,
        resolve_of_candidates (same.trans found) (by rw [same, code, candidates]), code]

/-- If no two candidates tie, then there is just one way to resolve a job. -/
theorem Resolves.unique (untied : e.IsUntied policy fleet) {x y : Except Fault (Resolution α)}
    (hx : Resolves policy fleet e x) (hy : Resolves policy fleet e y) : x = y := by
  cases hx with
  | unexplained kept =>
    cases hy with
    | unexplained _ => rfl
    | picked _ pick => exact absurd pick.1.2.1 (kept _ pick.1.1)
    | missing violated _ _ =>
      obtain ⟨r, given, violated⟩ := violated
      exact absurd violated (kept r given)
  | @picked c r decides pick =>
    cases hy with
    | unexplained kept => exact absurd pick.1.2.1 (kept _ pick.1.1)
    | @picked d s decides' pick' =>
      obtain rfl := decides.unique decides'
      have same : r = s := by
        by_contra differ
        exact (untied c decides r s pick.1 pick'.1 differ).elim (pick'.2 r pick.1) (pick.2 s pick'.1)
      rw [same]
    | missing _ decides' none =>
      obtain rfl := decides.unique decides'
      exact absurd pick.1 (none r)
  | missing violated decides none =>
    cases hy with
    | unexplained kept =>
      obtain ⟨r, given, violated⟩ := violated
      exact absurd violated (kept r given)
    | @picked d s decides' pick' =>
      obtain rfl := decides.unique decides'
      exact absurd pick'.1 (none s)
    | missing _ _ _ => rfl

/-- Whether there is a candidate tells how a job is resolved. -/
theorem Resolves.of_decides {x : Except Fault (Resolution α)} (hx : Resolves policy fleet e x)
    (some_violated : ∃ r ∈ e.records, r.IsViolated) {c : Reason} (decides : e.Decides c) :
    ((∀ r, ¬e.IsCandidate c r) → x = .error .noCandidate)
      ∧ ((∃ r, e.IsCandidate c r) → ∃ r, e.IsPick policy fleet c r
        ∧ x = .ok ⟨c, c.description, r.vehicleId, r.evidence.severity⟩) := by
  cases hx with
  | unexplained kept =>
    obtain ⟨r, given, violated⟩ := some_violated
    exact absurd violated (kept r given)
  | @picked d r decides' pick =>
    obtain rfl := decides.unique decides'
    exact ⟨fun none => absurd pick.1 (none r), fun _ => ⟨r, pick, rfl⟩⟩
  | missing _ decides' none =>
    obtain rfl := decides.unique decides'
    refine ⟨fun _ => rfl, ?_⟩
    rintro ⟨r, candidate⟩
    exact absurd candidate (none r)

/-- In another order the records may be resolved in the same ways. -/
theorem Resolves.of_perm {records : List (Record α)} (perm : records.Perm e.records) {x : Except Fault (Resolution α)}
    (hx : Resolves policy fleet { e with records } x) : Resolves policy fleet e x := by
  have candidate : ∀ c r, ({ e with records } : JobEvaluation α).IsCandidate c r ↔ e.IsCandidate c r :=
    fun c r => and_congr_left' perm.mem_iff
  have decides : ∀ c, ({ e with records } : JobEvaluation α).Decides c → e.Decides c := by
    rintro c (out | ⟨reached, ⟨r, first⟩, least⟩)
    · exact Or.inl out
    · exact Or.inr ⟨reached, ⟨r, (candidate c r).mp first⟩, fun d s other => least d s ((candidate d s).mpr other)⟩
  cases hx with
  | unexplained kept => exact .unexplained fun r given => kept r (perm.mem_iff.mpr given)
  | picked first pick =>
    exact .picked (decides _ first) ⟨(candidate _ _).mp pick.1, fun s other => pick.2 s ((candidate _ s).mpr other)⟩
  | missing violated first none =>
    obtain ⟨r, given, violated⟩ := violated
    exact .missing ⟨r, perm.mem_iff.mp given, violated⟩ (decides _ first) fun s other => none s ((candidate _ s).mpr other)

variable [OrderedQuantity α]

/-- The record that is picked is not beaten. -/
theorem isPick_firstLeast (distinct : fleet.Nodup)
    (comparable : ∀ r ∈ e.records, r.IsViolated → IsComparable r.evidence.severity) {c : Reason} {r : Record α}
    {others : List (Record α)} (candidates : e.violated.filter (·.code = c) = r :: others) :
    e.IsPick policy fleet c (firstLeast (compareCandidate policy fleet) r others) := by
  have candidate : ∀ s, s ∈ r :: others ↔ e.IsCandidate c s := fun s => candidates ▸ JobEvaluation.mem_filter_violated
  have comparable : ∀ s ∈ r :: others, IsComparable s.evidence.severity :=
    fun s listed => comparable s ((candidate s).mp listed).1 ((candidate s).mp listed).2.1
  have lt_iff : ∀ a ∈ r :: others, ∀ b ∈ r :: others, compareCandidate policy fleet a b = .lt ↔ Beats fleet policy a b :=
    fun a ha b hb => compareCandidate_eq_lt distinct (comparable a ha) (comparable b hb)
  have trans : ∀ a ∈ r :: others, ∀ b ∈ r :: others, ∀ c ∈ r :: others,
      ¬Beats fleet policy b a → ¬Beats fleet policy c b → ¬Beats fleet policy c a :=
    fun a ha b hb c hc => not_beats_trans distinct (comparable a ha) (comparable b hb) (comparable c hc)
  refine ⟨(candidate _).mp (firstLeast_mem (compareCandidate policy fleet) r others), fun s listed => ?_⟩
  refine firstLeast_le (R := fun a b => ¬Beats fleet policy b a) ?_ ?_ ?_ trans ((candidate s).mpr listed)
  · exact fun a ha b hb before => ((lt_iff a ha b hb).mp before).asymm distinct
  · exact fun a ha b hb not_before beats => not_before ((lt_iff a ha b hb).mpr beats)
  · exact fun a _ beats => beats.asymm distinct beats

/-- A job is resolved in one of the ways in which it may be. -/
theorem resolve_resolves (policy : TieBreak) (distinct : fleet.Nodup)
    (comparable : ∀ r ∈ e.records, r.IsViolated → IsComparable r.evidence.severity) :
    Resolves policy fleet e (resolve policy fleet e) := by
  cases found : e.violated with
  | nil =>
    rw [resolve_of_kept found]
    exact .unexplained (JobEvaluation.violated_eq_nil.mp found)
  | cons first rest =>
    have decides := JobEvaluation.decides_winningCode found
    cases candidates : e.violated.filter (·.code = winningCode e first rest) with
    | nil =>
      rw [resolve_of_missing found candidates]
      refine .missing ⟨first, JobEvaluation.mem_violated.mp (by simp [found])⟩ decides fun r candidate => ?_
      rw [← JobEvaluation.mem_filter_violated, candidates] at candidate
      exact absurd candidate (by simp)
    | cons r others =>
      rw [resolve_of_candidates found candidates]
      exact .picked decides (isPick_firstLeast distinct comparable candidates)

/-- The reason that stands for none is given if no record is violated, or if it decides because no other reason is on
record. -/
theorem resolve_unexplained_iff (policy : TieBreak) (distinct : fleet.Nodup)
    (comparable : ∀ r ∈ e.records, r.IsViolated → IsComparable r.evidence.severity) :
    (∃ shown, resolve policy fleet e = .ok shown ∧ shown.code = .unexplained)
      ↔ (∀ r ∈ e.records, ¬r.IsViolated)
        ∨ ¬e.AllOutOfReach ∧ ∀ r ∈ e.records, r.IsViolated → r.code = .unexplained := by
  have resolved : Resolves policy fleet e (resolve policy fleet e) := resolve_resolves policy distinct comparable
  generalize resolve policy fleet e = x at resolved
  cases resolved with
  | unexplained kept => exact iff_of_true ⟨_, rfl, rfl⟩ (Or.inl kept)
  | @picked c r decides pick =>
    constructor
    · rintro ⟨shown, same, unexplained⟩
      have unexplained : c = .unexplained := by
        rw [← unexplained, ← Except.ok.inj same]
      subst unexplained
      rcases decides with ⟨-, reachable⟩ | ⟨reached, -, least⟩
      · exact absurd reachable (by simp)
      · refine Or.inr ⟨reached, fun s given violated => ?_⟩
        have last : s.code.rank ≤ Reason.unexplained.rank := s.code.rank_le_length
        exact Reason.eq_of_rank_eq (Nat.le_antisymm last (least s.code s ⟨given, violated, rfl⟩))
    · rintro (kept | ⟨reached, unexplained⟩)
      · exact absurd pick.1.2.1 (kept r pick.1.1)
      · exact ⟨_, rfl, pick.1.2.2.symm.trans (unexplained r pick.1.1 pick.1.2.1)⟩
  | missing violated decides none =>
    refine iff_of_false (by simp) ?_
    obtain ⟨r, given, violated⟩ := violated
    rintro (kept | ⟨reached, unexplained⟩)
    · exact kept r given violated
    · rcases decides with ⟨all, -⟩ | ⟨-, ⟨s, candidate⟩, -⟩
      · exact reached all
      · exact none s candidate

/-- A violated record of the reason that stands for none. -/
def oddEvaluation : JobEvaluation Exact :=
  ⟨"a", [⟨.unexplained, .violated (some (.finite 5)), some "van", none⟩], ["van"], [], []⟩

/-- So it may be given although a record is violated. -/
theorem resolve_unexplained_of_violated :
    ¬∀ e : JobEvaluation Exact, (∃ shown, resolve .nearestMiss ["van"] e = .ok shown ∧ shown.code = .unexplained)
      ↔ ∀ r ∈ e.records, ¬r.IsViolated := by
  intro all
  have resolved : ∃ shown, resolve .nearestMiss ["van"] oddEvaluation = .ok shown ∧ shown.code = .unexplained :=
    ⟨⟨.unexplained, Reason.unexplained.description, some "van", some (.finite 5)⟩, by decide +kernel, rfl⟩
  exact (all oddEvaluation).mp resolved _ (List.mem_singleton.mpr rfl) ⟨_, rfl⟩

/-- A job of which no record is violated is resolved to no reason. Else there is one reason that decides; if it has a
candidate, then the job is resolved to it, with the vehicle and the severity of one that no other one beats, and if it has
none, then it is not resolved. Whatever records of constraints that are kept are added or taken away, and in whatever
order the records stand, unless two candidates tie, the job is resolved in the same way. -/
theorem resolve_picks_unbeaten (policy : TieBreak) (distinct : fleet.Nodup)
    (comparable : ∀ r ∈ e.records, r.IsViolated → IsComparable r.evidence.severity) :
    ((∀ r ∈ e.records, ¬r.IsViolated) → resolve policy fleet e = .ok .unknown)
      ∧ ((∃ shown, resolve policy fleet e = .ok shown ∧ shown.code = .unexplained)
        ↔ (∀ r ∈ e.records, ¬r.IsViolated)
          ∨ ¬e.AllOutOfReach ∧ ∀ r ∈ e.records, r.IsViolated → r.code = .unexplained)
      ∧ ((∃ r ∈ e.records, r.IsViolated) → ∃ c, (∀ d, e.Decides d ↔ d = c)
        ∧ ((∀ r, ¬e.IsCandidate c r) → resolve policy fleet e = .error .noCandidate)
        ∧ ((∃ r, e.IsCandidate c r) → ∃ r, e.IsPick policy fleet c r
          ∧ resolve policy fleet e = .ok ⟨c, c.description, r.vehicleId, r.evidence.severity⟩))
      ∧ ∀ records : List (Record α),
        (({ e with records } : JobEvaluation α).violated = e.violated →
          resolve policy fleet { e with records } = resolve policy fleet e)
        ∧ (records.Perm e.records → e.IsUntied policy fleet →
          resolve policy fleet { e with records } = resolve policy fleet e) := by
  have resolved := resolve_resolves (e := e) policy distinct comparable
  refine ⟨fun kept => resolve_of_kept (JobEvaluation.violated_eq_nil.mpr kept),
    resolve_unexplained_iff policy distinct comparable, ?_, fun records => ⟨resolve_of_violated_eq, ?_⟩⟩
  · intro some_violated
    obtain ⟨r, given, violated⟩ := some_violated
    cases found : e.violated with
    | nil => exact absurd violated (JobEvaluation.violated_eq_nil.mp found r given)
    | cons first rest =>
      have decides := JobEvaluation.decides_winningCode found
      exact ⟨_, fun d => ⟨fun decides' => decides'.unique decides, fun same => same ▸ decides⟩,
        resolved.of_decides ⟨r, given, violated⟩ decides⟩
  · intro perm untied
    have comparable' : ∀ r ∈ records, r.IsViolated → IsComparable r.evidence.severity :=
      fun r given => comparable r (perm.mem_iff.mp given)
    have resolved' := resolve_resolves (e := { e with records }) policy distinct comparable'
    exact (resolved'.of_perm perm).unique untied resolved

end

/-- Records of two vehicles of a fleet, and of one that is not part of it. -/
def mixedEvaluation : JobEvaluation Exact :=
  ⟨"a", [⟨.skill, .satisfied, some "van", none⟩, ⟨.capacity, .violated none, some "van", some 0⟩,
    ⟨.capacity, .violated (some (.finite 2)), some "ghost", none⟩, ⟨.tourSize, .violated (some (.finite 1)), some "van", none⟩,
    ⟨.capacity, .violated (some (.finite 2)), some "truck", some 1⟩], ["van", "truck"], ["van"], []⟩

theorem resolve_picks_unbeaten_mixed :
    (["van", "truck"] : List Text).Nodup
      ∧ (∀ r ∈ mixedEvaluation.records, r.IsViolated → IsComparable r.evidence.severity)
      ∧ (∃ r ∈ mixedEvaluation.records, r.IsViolated)
      ∧ resolve .nearestMiss ["van", "truck"] mixedEvaluation
        = .ok ⟨.capacity, Reason.capacity.description, some "truck", some (.finite 2)⟩
      ∧ ∃ c r, mixedEvaluation.Decides c ∧ mixedEvaluation.IsPick .nearestMiss ["van", "truck"] c r
        ∧ resolve .nearestMiss ["van", "truck"] mixedEvaluation
          = .ok ⟨c, c.description, r.vehicleId, r.evidence.severity⟩ := by
  have distinct : (["van", "truck"] : List Text).Nodup := by decide +kernel
  have comparable : ∀ r ∈ mixedEvaluation.records, r.IsViolated → IsComparable r.evidence.severity := by
    have defined : ∀ r ∈ mixedEvaluation.records, ∀ x ∈ r.evidence.severity, Quantity.isUndefined x = false := by
      decide +kernel
    exact fun r given _ => defined r given
  have violated : ∃ r ∈ mixedEvaluation.records, r.IsViolated :=
    ⟨_, List.mem_cons_of_mem _ List.mem_cons_self, none, rfl⟩
  have resolved : resolve .nearestMiss ["van", "truck"] mixedEvaluation
      = .ok ⟨.capacity, Reason.capacity.description, some "truck", some (.finite 2)⟩ := by decide +kernel
  obtain ⟨-, -, decided, -⟩ := resolve_picks_unbeaten .nearestMiss distinct comparable
  obtain ⟨c, decides, missing, picked⟩ := decided violated
  refine ⟨distinct, comparable, violated, resolved, c, ?_⟩
  by_cases candidate : ∃ r, mixedEvaluation.IsCandidate c r
  · obtain ⟨r, pick, same⟩ := picked candidate
    exact ⟨r, (decides c).mpr rfl, pick, same⟩
  · exact absurd (resolved.symm.trans (missing (not_exists.mp candidate))) (by simp)

end Leftover
