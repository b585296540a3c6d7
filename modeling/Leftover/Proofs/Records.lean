/-
# Records of a job

The records that are collected for a job, those of the outcomes and those of the hints that count together: one for each
vehicle and reason, the mildest of all for the two. Which ones they are does not depend on the order in which they are
put together, and they stand by priority and then by vehicle.

* `Record.Alike` : the same records, with severities at the same place
* `Merges` : records and new ones as one list, with `Merges.exists_alike` for its independence of the order
* `Evaluator.merges_collect` : the records that are collected
* `Evaluator.sorted_collect` : their order
-/
import Leftover.Proofs.Reasons
import Leftover.Proofs.Severities
import Leftover.Proofs.Sorting

namespace Leftover

/-! ## Records for a vehicle and a reason -/

namespace Record

variable {α : Type}

/-- What a record is about: a vehicle, if one is told, and a reason. -/
def key (r : Record α) : Option Text × Reason := (r.vehicleId, r.code)

theorem key_eq_iff {r s : Record α} : r.key = s.key ↔ r.vehicleId = s.vehicleId ∧ r.code = s.code := Prod.mk_inj

variable [Quantity α]

/-- The severity of a record is below that of another. -/
def IsMilder (r s : Record α) : Prop := Milder r.evidence.severity s.evidence.severity

/-- The severity of a record is not undefined, if there is one. -/
def IsDefined (r : Record α) : Prop := IsComparable r.evidence.severity

theorem not_isMilder_self [OrderedQuantity α] (r : Record α) : ¬r.IsMilder r := fun milder => milder.asymm milder

/-- Two records are the same, the numbers that measure their severities being at the same place. -/
structure Alike (r s : Record α) : Prop where
  key : r.key = s.key
  position : r.position = s.position
  isSatisfied : r.evidence.isSatisfied = s.evidence.isSatisfied
  severity : SameSeverity r.evidence.severity s.evidence.severity

theorem IsDefined.alike_self [OrderedQuantity α] {r : Record α} (defined : r.IsDefined) : r.Alike r :=
  ⟨rfl, rfl, rfl, sameSeverity_refl defined⟩

/-- Exact severities at the same place are the same. -/
theorem Alike.eq {r s : Record Exact} (alike : r.Alike s) : r = s := by
  obtain ⟨code, evidence, vehicleId, position⟩ := r
  obtain ⟨code', evidence', vehicleId', position'⟩ := s
  obtain ⟨rfl, rfl⟩ := key_eq_iff.mp alike.key
  obtain rfl := alike.position
  have severity := alike.severity.eq
  cases evidence with
  | satisfied =>
    cases evidence' with
    | satisfied => rfl
    | violated _ => exact absurd alike.isSatisfied (by simp [Evidence.isSatisfied])
  | violated _ =>
    cases evidence' with
    | satisfied => exact absurd alike.isSatisfied (by simp [Evidence.isSatisfied])
    | violated _ =>
      obtain rfl := severity
      rfl

end Record

namespace Evaluator

variable {α : Type} [Quantity α]

/-- A new record brings no second one for a vehicle and a reason. -/
theorem map_key_putRecord (new : Record α) (records : List (Record α)) :
    (new.key ∈ records.map Record.key ∧ (putRecord new records).map Record.key = records.map Record.key)
      ∨ (new.key ∉ records.map Record.key
        ∧ (putRecord new records).map Record.key = records.map Record.key ++ [new.key]) := by
  induction records with
  | nil => exact Or.inr ⟨by simp, rfl⟩
  | cons r rest ih =>
    rw [putRecord]
    split
    · rename_i same
      have same : r.key = new.key := Record.key_eq_iff.mpr same
      refine Or.inl ⟨by simp [same], ?_⟩
      split
      · rw [List.map_cons, List.map_cons, same]
      · rfl
    · rename_i other
      have other : ¬r.key = new.key := mt Record.key_eq_iff.mp other
      rw [List.map_cons, List.map_cons]
      rcases ih with ⟨present, keys⟩ | ⟨fresh, keys⟩
      · exact Or.inl ⟨List.mem_cons_of_mem _ present, by rw [keys]⟩
      · refine Or.inr ⟨?_, by rw [keys, List.cons_append]⟩
        rw [List.mem_cons, not_or]
        exact ⟨Ne.symm other, fresh⟩

/-- What stands among records after a new one was put there: all of them but one that the new one is milder than, and
the new one if there is none that it is about as well without being milder. -/
theorem mem_putRecord_iff [OrderedQuantity α] {new r : Record α} {records : List (Record α)} (distinct : (records.map Record.key).Nodup) :
    r ∈ putRecord new records ↔ (r ∈ records ∧ ¬(r.key = new.key ∧ new.IsMilder r))
      ∨ r = new ∧ ∀ s ∈ records, s.key = new.key → new.IsMilder s := by
  induction records with
  | nil => simp [putRecord]
  | cons s rest ih =>
    rw [List.map_cons, List.nodup_cons] at distinct
    rw [putRecord]
    split
    · rename_i same
      have same : s.key = new.key := Record.key_eq_iff.mpr same
      -- no other record is about the same
      have others : ∀ t ∈ rest, ¬t.key = new.key := fun t member key =>
        distinct.1 (List.mem_map.mpr ⟨t, member, key.trans same.symm⟩)
      have vacuous : ∀ t ∈ rest, t.key = new.key → new.IsMilder t := fun t member key => absurd key (others t member)
      split
      · rename_i milder
        have milder : new.IsMilder s := compareSeverity_eq_lt.mp milder
        constructor
        · intro member
          rcases List.mem_cons.mp member with rfl | member
          · exact Or.inr ⟨rfl, List.forall_mem_cons.mpr ⟨fun _ => milder, vacuous⟩⟩
          · exact Or.inl ⟨List.mem_cons_of_mem _ member, fun beaten => others r member beaten.1⟩
        · rintro (⟨member, unbeaten⟩ | ⟨rfl, -⟩)
          · rcases List.mem_cons.mp member with rfl | member
            · exact absurd ⟨same, milder⟩ unbeaten
            · exact List.mem_cons_of_mem _ member
          · exact List.mem_cons_self
      · rename_i not_milder
        have not_milder : ¬new.IsMilder s := mt compareSeverity_eq_lt.mpr not_milder
        constructor
        · intro member
          refine Or.inl ⟨member, fun beaten => ?_⟩
          rcases List.mem_cons.mp member with rfl | later
          · exact not_milder beaten.2
          · exact others r later beaten.1
        · rintro (⟨member, -⟩ | ⟨rfl, all⟩)
          · exact member
          · exact absurd (all s List.mem_cons_self same) not_milder
    · rename_i other
      have other : ¬s.key = new.key := mt Record.key_eq_iff.mp other
      rw [List.mem_cons, ih distinct.2, List.forall_mem_cons, List.mem_cons]
      constructor
      · rintro (rfl | ⟨member, unbeaten⟩ | ⟨rfl, all⟩)
        · exact Or.inl ⟨Or.inl rfl, fun beaten => other beaten.1⟩
        · exact Or.inl ⟨Or.inr member, unbeaten⟩
        · exact Or.inr ⟨rfl, fun same => absurd same other, all⟩
      · rintro (⟨rfl | member, unbeaten⟩ | ⟨rfl, -, all⟩)
        · exact Or.inl rfl
        · exact Or.inr (Or.inl ⟨member, unbeaten⟩)
        · exact Or.inr (Or.inr ⟨rfl, all⟩)

end Evaluator

/-! ## Merged records -/

/-- Records and new ones as one list: one record for each vehicle and reason that some of them are about, none of them
milder; a record is kept unless a new one is milder, and then a new one takes its place. -/
structure Merges {α : Type} [Quantity α] (own news merged : List (Record α)) : Prop where
  distinct : (merged.map Record.key).Nodup
  mem_keys : ∀ key, key ∈ merged.map Record.key ↔ key ∈ own.map Record.key ∨ key ∈ news.map Record.key
  least : ∀ r ∈ merged, ∀ s ∈ own ++ news, s.key = r.key → ¬s.IsMilder r
  kept : ∀ r ∈ own, (∀ n ∈ news, n.key = r.key → ¬n.IsMilder r) → r ∈ merged
  given : ∀ r ∈ merged, r ∈ own ∨ r ∈ news

namespace Merges

variable {α : Type} [Quantity α] [OrderedQuantity α] {own news merged : List (Record α)}

theorem of_nil (distinct : (own.map Record.key).Nodup) : Merges own [] own where
  distinct := distinct
  mem_keys := by simp
  least := by
    intro r hr s hs same
    rw [List.append_nil] at hs
    rw [List.inj_on_of_nodup_map distinct hs hr same]
    exact r.not_isMilder_self
  kept := fun r hr _ => hr
  given := fun r hr => Or.inl hr

omit [OrderedQuantity α] in
theorem of_perm {merged' : List (Record α)} (merges : Merges own news merged) (perm : merged'.Perm merged) :
    Merges own news merged' where
  distinct := (perm.map _).nodup_iff.mpr merges.distinct
  mem_keys := fun key => (perm.map _).mem_iff.trans (merges.mem_keys key)
  least := fun r hr => merges.least r (perm.mem_iff.mp hr)
  kept := fun r hr unbeaten => perm.mem_iff.mpr (merges.kept r hr unbeaten)
  given := fun r hr => merges.given r (perm.mem_iff.mp hr)

omit [OrderedQuantity α] in
/-- There are merged records unless there are none to merge. -/
theorem eq_nil_iff (merges : Merges own news merged) : merged = [] ↔ own ++ news = [] := by
  rw [← List.map_eq_nil_iff (f := Record.key), ← List.map_eq_nil_iff (f := Record.key), List.eq_nil_iff_forall_not_mem,
    List.eq_nil_iff_forall_not_mem]
  refine forall_congr' fun key => not_congr ?_
  rw [merges.mem_keys, List.map_append, List.mem_append]

/-- One more record is merged. -/
theorem put (merges : Merges own news merged) {new : Record α} (own_defined : ∀ r ∈ own, r.IsDefined)
    (news_defined : ∀ r ∈ news, r.IsDefined) (new_defined : new.IsDefined) :
    Merges own (news ++ [new]) (Evaluator.putRecord new merged) where
  distinct := by
    rcases Evaluator.map_key_putRecord new merged with ⟨-, keys⟩ | ⟨fresh, keys⟩
    · rw [keys]
      exact merges.distinct
    · rw [keys, List.nodup_append]
      refine ⟨merges.distinct, List.nodup_singleton _, ?_⟩
      rintro key member key' single rfl
      exact fresh (List.mem_singleton.mp single ▸ member)
  mem_keys := by
    intro key
    rcases Evaluator.map_key_putRecord new merged with ⟨present, keys⟩ | ⟨-, keys⟩
    · rw [keys, merges.mem_keys, List.map_append, List.mem_append, List.map_singleton, List.mem_singleton]
      constructor
      · rintro (old | old)
        · exact Or.inl old
        · exact Or.inr (Or.inl old)
      · rintro (old | old | rfl)
        · exact Or.inl old
        · exact Or.inr old
        · exact (merges.mem_keys _).mp present
    · rw [keys, List.mem_append, merges.mem_keys, List.map_append, List.mem_append, or_assoc]
      rfl
  least := by
    intro r hr s hs same
    rw [← List.append_assoc] at hs
    rcases (Evaluator.mem_putRecord_iff merges.distinct).mp hr with ⟨old, unbeaten⟩ | ⟨rfl, milder⟩
    · rcases List.mem_append.mp hs with hs | hs
      · exact merges.least r old s hs same
      · obtain rfl := List.mem_singleton.mp hs
        exact fun milder => unbeaten ⟨same.symm, milder⟩
    · rcases List.mem_append.mp hs with hs | hs
      · -- the new record is milder than the one before it, and this one was the mildest so far
        have present : r.key ∈ merged.map Record.key := by
          rw [merges.mem_keys, ← List.mem_append, ← List.map_append]
          exact List.mem_map.mpr ⟨s, hs, same⟩
        obtain ⟨t, ht, about⟩ := List.mem_map.mp present
        have t_defined : t.IsDefined := (merges.given t ht).elim (own_defined t) (news_defined t)
        have s_defined : s.IsDefined := (List.mem_append.mp hs).elim (own_defined s) (news_defined s)
        have not_milder : ¬s.IsMilder t := merges.least t ht s hs (same.trans about.symm)
        exact not_milder_trans new_defined t_defined s_defined (milder t ht about).asymm not_milder
      · obtain rfl := List.mem_singleton.mp hs
        exact s.not_isMilder_self
  kept := by
    intro r hr unbeaten
    rw [List.forall_mem_append, List.forall_mem_singleton] at unbeaten
    rw [Evaluator.mem_putRecord_iff merges.distinct]
    exact Or.inl ⟨merges.kept r hr unbeaten.1, fun beaten => unbeaten.2 beaten.1.symm beaten.2⟩
  given := by
    intro r hr
    rcases Evaluator.mem_putRecord hr with rfl | old
    · exact Or.inr (by simp)
    · exact (merges.given r old).imp_right fun old => List.mem_append_left _ old

/-- The records of any number of hints are merged, one after the other. -/
theorem putAll {hints : List (Hint α)} (merges : Merges own news merged) (own_defined : ∀ r ∈ own, r.IsDefined)
    (news_defined : ∀ r ∈ news, r.IsDefined) (hints_defined : ∀ h ∈ hints, IsComparable h.severity) :
    Merges own (news ++ hints.map Evaluator.recordOf)
      (hints.foldl (fun done h => Evaluator.putRecord (Evaluator.recordOf h) done) merged) := by
  induction hints generalizing news merged with
  | nil =>
    rw [List.map_nil, List.append_nil]
    exact merges
  | cons h rest ih =>
    rw [List.forall_mem_cons] at hints_defined
    have defined : (Evaluator.recordOf h).IsDefined := hints_defined.1
    have next := ih (merges.put own_defined news_defined defined)
      (List.forall_mem_append.mpr ⟨news_defined, List.forall_mem_singleton.mpr defined⟩) hints_defined.2
    rw [List.append_assoc] at next
    exact next

/-- Whichever records are merged, they are about the same, with the mildest records of all. -/
theorem exists_alike {own' news' merged' : List (Record α)} (merges : Merges own news merged)
    (merges' : Merges own' news' merged') (same_own : ∀ r, r ∈ own ↔ r ∈ own') (same_news : ∀ r, r ∈ news ↔ r ∈ news')
    (own_defined : ∀ r ∈ own, r.IsDefined) (news_defined : ∀ r ∈ news, r.IsDefined)
    (told : ∀ r ∈ news, ∃ h, r = Evaluator.recordOf h) : ∀ r ∈ merged, ∃ r' ∈ merged', r.Alike r' := by
  intro r hr
  by_cases mine : r ∈ own
  · have kept : r ∈ merged' := merges'.kept r ((same_own r).mp mine) fun n hn same =>
      merges.least r hr n (List.mem_append_right _ ((same_news n).mpr hn)) same
    exact ⟨r, kept, (own_defined r mine).alike_self⟩
  · have new : r ∈ news := (merges.given r hr).resolve_left mine
    have present : r.key ∈ merged'.map Record.key := by
      rw [merges'.mem_keys]
      exact Or.inr (List.mem_map_of_mem ((same_news r).mp new))
    obtain ⟨t, ht, about⟩ := List.mem_map.mp present
    rcases merges'.given t ht with own_t | new_t
    · -- a record that is kept on the one side is kept on the other one too
      have kept : t ∈ merged := merges.kept t ((same_own t).mpr own_t) fun n hn same =>
        merges'.least t ht n (List.mem_append_right _ ((same_news n).mp hn)) same
      have same : t = r := List.inj_on_of_nodup_map merges.distinct kept hr about
      exact absurd ((same_own t).mpr own_t) (same ▸ mine)
    · -- neither of two hints is milder than the other
      have new_t : t ∈ news := (same_news t).mpr new_t
      have level : AsSevere r.evidence.severity t.evidence.severity :=
        ⟨merges'.least t ht r (List.mem_append_right _ ((same_news r).mp new)) about.symm,
          merges.least r hr t (List.mem_append_right _ new_t) about⟩
      have severity := level.sameSeverity (news_defined r new) (news_defined t new_t)
      obtain ⟨h, rfl⟩ := told r new
      obtain ⟨h', rfl⟩ := told t new_t
      exact ⟨_, ht, about.symm, rfl, rfl, severity⟩

end Merges

/-! ## The order of records -/

/-- Reasons are told apart by their ranks. -/
theorem Reason.eq_of_rank_eq {r s : Reason} (same : r.rank = s.rank) : r = s := by
  have apart : ∀ r ∈ Reason.all, ∀ s ∈ Reason.all, r.rank = s.rank → r = s := by decide
  exact apart r r.mem_all s s.mem_all same

section

variable {α : Type} {fleet : List Text}

/-- A vehicle and a reason come before others: the reason takes precedence, or for one reason the vehicle comes first. -/
def KeyPrecedes (fleet : List Text) (a b : Option Text × Reason) : Prop :=
  a.2.rank < b.2.rank ∨ a.2.rank = b.2.rank ∧ placeIn fleet a.1 < placeIn fleet b.1

/-- A record stands before another, for what the two are about. -/
def Record.Precedes (fleet : List Text) (a b : Record α) : Prop := KeyPrecedes fleet a.key b.key

theorem Record.precedes_iff {a b : Record α} : a.Precedes fleet b ↔
    a.code.rank < b.code.rank
      ∨ a.code.rank = b.code.rank ∧ placeIn fleet a.vehicleId < placeIn fleet b.vehicleId := Iff.rfl

theorem compareRecord_eq_lt {a b : Record α} :
    Evaluator.compareRecord fleet a b = .lt ↔ a.Precedes fleet b
      ∨ a.code.rank = b.code.rank ∧ placeIn fleet a.vehicleId = placeIn fleet b.vehicleId
        ∧ a.position.getD (-1) < b.position.getD (-1) := by
  rw [Record.precedes_iff, Evaluator.compareRecord]
  simp only [Ordering.then_eq_lt, Ordering.then_eq_eq, Nat.compare_eq_eq, compare_lt_iff_lt]
  tauto

theorem isOrder_compareRecord (fleet : List Text) :
    IsOrder fun a b : Record α => decide (Evaluator.compareRecord fleet a b = .lt) where
  asymm := by
    intro a b ab
    simp only [decide_eq_true_eq, decide_eq_false_iff_not, compareRecord_eq_lt, Record.precedes_iff] at ab ⊢
    omega
  trans := by
    intro a b c ba cb
    simp only [decide_eq_false_iff_not, compareRecord_eq_lt, Record.precedes_iff] at ba cb ⊢
    omega

/-- Sorted records stand in order, if no two are about the same vehicle and reason and the vehicles are known. -/
theorem sortRecords_pairwise (fleet_distinct : fleet.Nodup) {records : List (Record α)}
    (distinct : (records.map Record.key).Nodup) (known : ∀ r ∈ records, ∀ id ∈ r.vehicleId, id ∈ fleet) :
    (Evaluator.sortRecords fleet records).Pairwise (Record.Precedes fleet) := by
  have perm : (Evaluator.sortRecords fleet records).Perm records := sortedBy_perm _ _
  have ordered := sortedBy_ordered (isOrder_compareRecord fleet) records
  have apart : (Evaluator.sortRecords fleet records).Pairwise fun a b => a.key ≠ b.key :=
    List.pairwise_map.mp ((perm.map Record.key).nodup_iff.mpr distinct)
  refine (ordered.and apart).imp_of_mem fun {a b} ha hb both => ?_
  obtain ⟨not_before, differ⟩ := both
  rw [decide_eq_false_iff_not, compareRecord_eq_lt] at not_before
  -- records at the same place in the order would be about the same
  have tie : ¬(a.code.rank = b.code.rank ∧ placeIn fleet a.vehicleId = placeIn fleet b.vehicleId) := by
    rintro ⟨rank, place⟩
    have vehicle : a.vehicleId = b.vehicleId :=
      eq_of_placeIn_eq fleet_distinct (known a (perm.mem_iff.mp ha)) (known b (perm.mem_iff.mp hb)) place
    exact differ (Record.key_eq_iff.mpr ⟨vehicle, Reason.eq_of_rank_eq rank⟩)
  rw [Record.precedes_iff] at not_before ⊢
  omega

/-- Records about the same stand in the same order. -/
theorem map_key_eq_of_precedes {records records' : List (Record α)}
    (perm : (records.map Record.key).Perm (records'.map Record.key)) (sorted : records.Pairwise (Record.Precedes fleet))
    (sorted' : records'.Pairwise (Record.Precedes fleet)) : records.map Record.key = records'.map Record.key := by
  have keys : (records.map Record.key).Pairwise (KeyPrecedes fleet) := List.pairwise_map.mpr sorted
  have keys' : (records'.map Record.key).Pairwise (KeyPrecedes fleet) := List.pairwise_map.mpr sorted'
  refine perm.eq_of_pairwise ?_ keys keys'
  intro a b _ _ ab ba
  unfold KeyPrecedes at ab ba
  omega

end

/-! ## Records of outcomes -/

namespace Attempt

section

variable {α : Type} [Quantity α] {a : Attempt α} {out : VehicleOutcome α}

/-- The records of an outcome are about its vehicle. -/
theorem Agrees.vehicleId_of_mem [Plane α] (agrees : a.Agrees out) {record : Record α} (member : record ∈ out.records) :
    record.vehicleId = some out.vehicleId := by
  rw [agrees.vehicleId_eq]
  cases reached : out.unreachable with
  | true =>
    rw [agrees.of_unreachable reached] at member
    rw [List.mem_singleton.mp member]
  | false =>
    obtain ⟨k, -, found⟩ := agrees.of_reachable reached
    obtain ⟨r, severity, -, rfl⟩ := (found.mem_iff record).mp member
    rfl

/-- No two records of an outcome are of one reason. -/
theorem Agrees.pairwise_code_ne [Plane α] (agrees : a.Agrees out) : out.records.Pairwise fun x y => x.code ≠ y.code := by
  cases reached : out.unreachable with
  | true =>
    rw [agrees.of_unreachable reached]
    exact List.pairwise_singleton _ _
  | false =>
    obtain ⟨k, -, found⟩ := agrees.of_reachable reached
    refine found.ranked.imp fun {x y} lt same => ?_
    rw [same] at lt
    exact Nat.lt_irrefl _ lt

/-- The records of an outcome have severities that can be compared. -/
theorem Agrees.isDefined [Scale α] [Plane α] (agrees : a.Agrees out) {record : Record α}
    (member : record ∈ out.records) : record.IsDefined := by
  cases reached : out.unreachable with
  | true =>
    rw [agrees.of_unreachable reached] at member
    rw [List.mem_singleton.mp member]
    exact fun x measured => absurd measured (by simp [Evidence.severity])
  | false =>
    obtain ⟨k, -, found⟩ := agrees.of_reachable reached
    obtain ⟨r, severity, violated, rfl⟩ := (found.mem_iff record).mp member
    exact (Insertion.check_isGraded violated.2).isComparable

end

end Attempt

namespace Evaluator

/-- No two records of outcomes for different vehicles are about the same vehicle and reason. -/
theorem nodup_key_records {α : Type} [Quantity α] [Plane α] {outcomes : List (VehicleOutcome α)}
    (agree : ∀ out ∈ outcomes, ∃ a : Attempt α, a.Agrees out) (vehicles : (outcomes.map (·.vehicleId)).Nodup) :
    ((outcomes.flatMap (·.records)).map Record.key).Nodup := by
  rw [List.Nodup, List.pairwise_map, List.pairwise_flatMap]
  constructor
  · intro out member
    obtain ⟨a, agrees⟩ := agree out member
    exact agrees.pairwise_code_ne.imp fun {x y} differ same => differ (Record.key_eq_iff.mp same).2
  · refine (List.pairwise_map.mp vehicles).imp_of_mem fun {out out'} member member' differ x hx y hy same => ?_
    obtain ⟨a, agrees⟩ := agree out member
    obtain ⟨a', agrees'⟩ := agree out' member'
    have vehicle := (Record.key_eq_iff.mp same).1
    rw [agrees.vehicleId_of_mem hx, agrees'.vehicleId_of_mem hy] at vehicle
    exact differ (Option.some.inj vehicle)

section

variable {α : Type} [Quantity α] [Scale α] [Plane α] {e : Evaluator α} {job : Job α}
  {outcomes : List (VehicleOutcome α)} (agree : ∀ out ∈ outcomes, ∃ a : Attempt α, a.Agrees out)
  (vehicles : (outcomes.map (·.vehicleId)).Nodup) (defined : ∀ h ∈ e.usableHints job.id, IsComparable h.severity)

include agree

theorem isDefined_of_mem {r : Record α} (member : r ∈ outcomes.flatMap (·.records)) : r.IsDefined := by
  obtain ⟨out, listed, member⟩ := List.mem_flatMap.mp member
  obtain ⟨a, agrees⟩ := agree out listed
  exact agrees.isDefined member

include vehicles defined

/-- The records that are collected are those of the outcomes, merged with those of the hints that count. -/
theorem merges_collect :
    Merges (outcomes.flatMap (·.records)) ((e.usableHints job.id).map recordOf) (e.collect job outcomes).records := by
  have merges := (Merges.of_nil (nodup_key_records agree vehicles)).putAll (fun r => isDefined_of_mem agree) (by simp)
    defined
  exact merges.of_perm (e.records_collect_perm job outcomes)

/-- The records that are collected stand in order, if hints name no vehicles but those of the fleet. -/
theorem sorted_collect (fleet : e.problem.fleetIds.Nodup)
    (own : ∀ out ∈ outcomes, out.vehicleId ∈ e.problem.fleetIds)
    (named : ∀ h ∈ e.usableHints job.id, ∀ id ∈ h.vehicleId, id ∈ e.problem.fleetIds) :
    (e.collect job outcomes).records.Pairwise (Record.Precedes e.problem.fleetIds) := by
  have merges := merges_collect agree vehicles defined
  refine sortRecords_pairwise fleet ?_ ?_
  · exact ((sortedBy_perm _ _).map Record.key).nodup_iff.mp merges.distinct
  · intro r hr id told
    rcases merges.given r ((sortedBy_perm _ _).mem_iff.mpr hr) with found | hinted
    · obtain ⟨out, listed, found⟩ := List.mem_flatMap.mp found
      obtain ⟨a, agrees⟩ := agree out listed
      rw [agrees.vehicleId_of_mem found, Option.mem_some_iff] at told
      exact told ▸ own out listed
    · obtain ⟨h, usable, rfl⟩ := List.mem_map.mp hinted
      exact named h usable id told

end

end Evaluator

end Leftover
