/-
# Reports by reason

The entries of a report are grouped by their reasons, in the order in which these first occur. The summary has a row for
each reason that occurs, in the order of priority. No entry is lost or counted twice in either, so the jobs of the rows add
up to those of the report, and their shares to one.

* `flatMap_filter_perm` : items taken key by key
* `Report.byCode_eq` : the groups of a report
* `Report.IsGrouping`, `Report.IsSummary` : what the groups and the rows of a report are like
* `Report.summary_partitions` : they are like that
-/
import Leftover.Proofs.Leftovers
import Leftover.Proofs.Modes
import Leftover.Report.Summary
import Mathlib.Algebra.Field.Basic
import Mathlib.Algebra.Field.Rat

namespace Leftover

/-! ## Items key by key -/

/-- Items that are taken key by key are the items in another order, if each has one of the keys. -/
theorem flatMap_filter_perm {β κ : Type} [DecidableEq κ] (key : β → κ) {keys : List κ} (distinct : keys.Nodup)
    {items : List β} (covered : ∀ b ∈ items, key b ∈ keys) :
    (keys.flatMap fun k => items.filter (key · = k)).Perm items := by
  induction keys generalizing items with
  | nil =>
    have none_there : items = [] := List.eq_nil_iff_forall_not_mem.mpr fun b member => absurd (covered b member) (by simp)
    rw [none_there]
    exact List.Perm.refl _
  | cons k rest ih =>
    rw [List.nodup_cons] at distinct
    -- the items with a later key are found among those without the first one
    have later : (rest.flatMap fun k' => items.filter (key · = k'))
        = rest.flatMap fun k' => (items.filter fun b => !decide (key b = k)).filter (key · = k') := by
      refine List.flatMap_congr fun k' listed => ?_
      rw [List.filter_filter]
      refine List.filter_congr fun b _ => ?_
      by_cases same : key b = k'
      · have other : ¬key b = k := fun first => distinct.1 (first ▸ same ▸ listed)
        simp only [same, decide_true, Bool.true_and]
        simpa [same] using other
      · simp [same]
    have left : ∀ b ∈ items.filter fun b => !decide (key b = k), key b ∈ rest := by
      intro b member
      obtain ⟨listed, other⟩ := List.mem_filter.mp member
      exact (List.mem_cons.mp (covered b listed)).resolve_left (by simpa using other)
    rw [List.flatMap_cons, later]
    exact ((ih distinct.2 left).append_left _).trans (List.filter_append_perm _ items)

namespace Report

variable {α : Type}

/-! ## Groups -/

/-- The reasons of the entries. -/
def codes (r : Report α) : List Reason := r.entries.map (·.code)

/-- The jobs of the entries with a reason, in the order of the entries. -/
def idsOf (r : Report α) (code : Reason) : List Text := (r.entries.filter (·.code = code)).map (·.jobId)

theorem idsOf_eq_nil {r : Report α} {code : Reason} (absent : code ∉ r.codes) : r.idsOf code = [] := by
  rw [idsOf, List.map_eq_nil_iff, List.filter_eq_nil_iff]
  intro e listed
  have other : ¬e.code = code := fun same => absent (List.mem_map.mpr ⟨e, listed, same⟩)
  simpa using other

theorem length_idsOf (r : Report α) (code : Reason) : (r.idsOf code).length = r.codes.count code := by
  rw [idsOf, codes, List.length_map, List.count, List.countP_map, List.countP_eq_length_filter]
  rfl

/-- A job is added to its group if there is one. -/
theorem addToGroup_of_mem {code : Reason} (jobId : Text) (ids : Reason → List Text) {keys : List Reason}
    (distinct : keys.Nodup) (known : code ∈ keys) :
    addToGroup code jobId (keys.map fun c => (c, ids c))
      = keys.map fun c => (c, if c = code then ids c ++ [jobId] else ids c) := by
  induction keys with
  | nil => exact absurd known (by simp)
  | cons first rest ih =>
    rw [List.nodup_cons] at distinct
    rw [List.map_cons, List.map_cons, addToGroup]
    by_cases same : first = code
    · have others : ∀ c ∈ rest, ¬c = code := fun c listed again => distinct.1 (same ▸ again ▸ listed)
      rw [if_pos same, if_pos same]
      congr 1
      refine List.map_congr_left fun c listed => ?_
      rw [if_neg (others c listed)]
    · rw [if_neg same, if_neg same, ih distinct.2 ((List.mem_cons.mp known).resolve_left (Ne.symm same))]

/-- A job without a group makes up a new one. -/
theorem addToGroup_of_notMem {code : Reason} (jobId : Text) (ids : Reason → List Text) {keys : List Reason}
    (new : code ∉ keys) :
    addToGroup code jobId (keys.map fun c => (c, ids c)) = (keys.map fun c => (c, ids c)) ++ [(code, [jobId])] := by
  induction keys with
  | nil => rfl
  | cons first rest ih =>
    rw [List.mem_cons, not_or] at new
    rw [List.map_cons, addToGroup, if_neg (Ne.symm new.1), ih new.2, List.cons_append]

section

variable (entries : List (Entry α)) (last : Entry α)

theorem codes_concat : codes ⟨entries ++ [last]⟩ = codes ⟨entries⟩ ++ [last.code] := by simp [codes]

theorem idsOf_concat (code : Reason) :
    idsOf ⟨entries ++ [last]⟩ code
      = if code = last.code then idsOf ⟨entries⟩ code ++ [last.jobId] else idsOf ⟨entries⟩ code := by
  by_cases same : code = last.code
  · simp [idsOf, same]
  · simp [idsOf, same, Ne.symm same]

theorem byCode_concat : byCode ⟨entries ++ [last]⟩ = addToGroup last.code last.jobId (byCode ⟨entries⟩) := by
  rw [byCode, byCode, List.foldl_append]
  rfl

end

/-- The groups of a report: one for each reason that occurs, in the order in which they first do, with its jobs. -/
theorem byCode_eq (r : Report α) : r.byCode = r.codes.eraseDups.map fun code => (code, r.idsOf code) := by
  obtain ⟨entries⟩ := r
  -- the groups are made up from the front
  induction entries using List.reverseRecOn with
  | nil => rfl
  | append_singleton entries last ih =>
    rw [byCode_concat, ih, codes_concat]
    by_cases known : last.code ∈ codes ⟨entries⟩
    · rw [eraseDups_concat_of_mem known, addToGroup_of_mem _ _ (nodup_eraseDups _) (List.mem_eraseDups.mpr known)]
      simp only [idsOf_concat]
    · have others : ∀ code ∈ (codes ⟨entries⟩).eraseDups,
          (code, idsOf ⟨entries ++ [last]⟩ code) = (code, idsOf ⟨entries⟩ code) := by
        intro code listed
        have other : ¬code = last.code := fun same => known (same ▸ List.mem_eraseDups.mp listed)
        rw [idsOf_concat, if_neg other]
      rw [addToGroup_of_notMem _ _ (mt List.mem_eraseDups.mp known), eraseDups_concat_of_notMem known, List.map_append,
        List.map_congr_left others, List.map_singleton, idsOf_concat, if_pos rfl, idsOf_eq_nil known, List.nil_append]

/-- The reasons of the groups are those that occur, each once, in the order in which they first do. -/
theorem map_fst_byCode (r : Report α) : r.byCode.map (·.1) = r.codes.eraseDups := by
  rw [byCode_eq, List.map_map]
  exact List.map_id _

/-- The jobs of the entries that are taken reason by reason are those of the report in another order. -/
theorem flatMap_idsOf_perm (r : Report α) {keys : List Reason} (distinct : keys.Nodup)
    (covered : ∀ code ∈ r.codes, code ∈ keys) : (keys.flatMap r.idsOf).Perm r.jobIds := by
  have entries : (keys.flatMap fun code => r.entries.filter (·.code = code)).Perm r.entries :=
    flatMap_filter_perm Entry.code distinct fun e listed => covered _ (List.mem_map_of_mem listed)
  have ids : keys.flatMap r.idsOf = (keys.flatMap fun code => r.entries.filter (·.code = code)).map (·.jobId) := by
    rw [List.map_flatMap]
    rfl
  rw [ids]
  exact entries.map _

/-- What the groups of a report are like: a group for each reason that occurs, in the order in which they first do, with
the jobs of its entries in their order, and with all groups no job lost or repeated. -/
structure IsGrouping (r : Report α) (groups : List (Reason × List Text)) : Prop where
  mem_iff : ∀ code ids, (code, ids) ∈ groups ↔ code ∈ r.codes ∧ ids = r.idsOf code
  first_seen : (groups.map (·.1)).Pairwise fun code code' => r.codes.idxOf code < r.codes.idxOf code'
  perm : (groups.flatMap (·.2)).Perm r.jobIds

theorem isGrouping_byCode (r : Report α) : r.IsGrouping r.byCode where
  mem_iff code ids := by
    rw [byCode_eq, List.mem_map]
    constructor
    · rintro ⟨code', listed, same⟩
      obtain ⟨rfl, rfl⟩ := Prod.mk.inj same
      exact ⟨List.mem_eraseDups.mp listed, rfl⟩
    · rintro ⟨occurs, rfl⟩
      exact ⟨code, List.mem_eraseDups.mpr occurs, rfl⟩
  first_seen := by
    rw [map_fst_byCode]
    exact pairwise_idxOf_eraseDups _
  perm := by
    rw [byCode_eq, List.flatMap_map]
    exact r.flatMap_idsOf_perm (nodup_eraseDups _) fun _ => List.mem_eraseDups.mpr

/-! ## Rows -/

/-- The number of jobs of a reason is that of its entries. -/
theorem count_eq (r : Report α) (code : Reason) : r.count code = (r.idsOf code).length := by
  rw [count]
  by_cases occurs : code ∈ r.codes
  · have distinct : (r.byCode.map (·.1)).Nodup := by
      rw [map_fst_byCode]
      exact nodup_eraseDups _
    rw [find?_key_eq_some distinct ((r.isGrouping_byCode.mem_iff code _).mpr ⟨occurs, rfl⟩)]
  · have absent : r.byCode.find? (·.1 = code) = none := by
      rw [List.find?_eq_none]
      rintro ⟨code', ids⟩ member
      have other : ¬code' = code := fun same => occurs (same ▸ ((r.isGrouping_byCode.mem_iff _ _).mp member).1)
      simpa using other
    rw [absent, idsOf_eq_nil occurs, List.length_nil]

/-- The rows are about the reasons that occur. -/
theorem mem_summaryCodes {r : Report α} {code : Reason} : code ∈ r.summaryCodes ↔ code ∈ r.codes := by
  simp only [summaryCodes, map_fst_byCode, List.mem_append, List.mem_filter, List.contains_iff_mem, List.mem_eraseDups,
    Bool.not_eq_true', ← Bool.not_eq_true]
  tauto

/-- The rows are in the order of priority. -/
theorem pairwise_rank_summaryCodes (r : Report α) : r.summaryCodes.Pairwise fun code code' => code.rank < code'.rank := by
  rw [summaryCodes, map_fst_byCode, List.pairwise_append]
  have unranked : ∀ code ∈ r.codes.eraseDups.filter (!priorityOrder.contains ·), code = .unexplained := by
    intro code listed
    have absent := (List.mem_filter.mp listed).2
    revert absent
    cases code <;> decide
  refine ⟨(Catalog.select r.codes.eraseDups.contains).pairwise_rank_lt, ?_, ?_⟩
  · -- the one reason without a rank occurs once
    refine ((nodup_eraseDups r.codes).filter _).imp_of_mem fun listed listed' differ => absurd ?_ differ
    rw [unranked _ listed, unranked _ listed']
  · intro code listed code' listed'
    rw [unranked _ listed']
    exact List.idxOf_lt_length_of_mem (List.mem_filter.mp listed).1

theorem nodup_summaryCodes (r : Report α) : r.summaryCodes.Nodup :=
  r.pairwise_rank_summaryCodes.imp Reason.ne_of_rank_lt

section

variable [Quantity α]

theorem map_code_summary (r : Report α) : r.summary.map (·.code) = r.summaryCodes := by
  rw [summary, List.map_map]
  exact List.map_id _

theorem ranked_summary (r : Report α) : r.summary.Pairwise fun row row' => row.code.rank < row'.code.rank := by
  rw [summary, List.pairwise_map]
  exact r.pairwise_rank_summaryCodes

/-- The jobs of the rows add up to those of the report. -/
theorem sum_jobs_summary (r : Report α) : (r.summary.map (·.jobs)).sum = r.size :=
  calc (r.summary.map (·.jobs)).sum
      = (r.summaryCodes.map r.count).sum := by
        rw [summary, List.map_map]
        rfl
    _ = (r.summaryCodes.flatMap r.idsOf).length := by
        rw [List.length_flatMap]
        exact congrArg List.sum (List.map_congr_left fun code _ => r.count_eq code)
    _ = r.jobIds.length := (r.flatMap_idsOf_perm r.nodup_summaryCodes fun _ => mem_summaryCodes.mpr).length_eq
    _ = r.size := List.length_map _

end

/-- Among rows in the order of priority the one without a reason is the last. -/
theorem getLast?_of_unexplained {rows : List (SummaryRow α)}
    (ranked : rows.Pairwise fun row row' => row.code.rank < row'.code.rank) {row : SummaryRow α} (listed : row ∈ rows)
    (unexplained : row.code = .unexplained) : rows.getLast? = some row := by
  obtain ⟨front, back, rfl⟩ := List.mem_iff_append.mp listed
  rw [List.pairwise_append, List.pairwise_cons] at ranked
  -- no reason has a higher rank
  have none_after : back = [] := by
    refine List.eq_nil_iff_forall_not_mem.mpr fun row' after => ?_
    have lt : row.code.rank < row'.code.rank := ranked.2.1.1 row' after
    have le : row'.code.rank ≤ Reason.unexplained.rank := row'.code.rank_le_length
    rw [unexplained] at lt
    omega
  rw [none_after, List.getLast?_concat]

/-- The share of some things of a number of them, computed exactly. -/
theorem exact_share {size : Nat} (some_there : size ≠ 0) (jobs : Nat) :
    (Quantity.ofNat jobs / Quantity.ofNat size : Exact) = .finite (jobs / size) := by
  have not_zero : ¬((size : Int) : Rat) = 0 := by exact_mod_cast some_there
  show Exact.div (.finite ((jobs : Int) : Rat)) (.finite ((size : Int) : Rat)) = _
  rw [Exact.div, if_neg not_zero, Int.cast_natCast, Int.cast_natCast]

/-- Exact shares add up to the share of the sum. -/
theorem sum_exact_shares {size : Nat} (some_there : size ≠ 0) (numbers : List Nat) :
    (numbers.map fun jobs => (Quantity.ofNat jobs / Quantity.ofNat size : Exact)).sum = .finite (numbers.sum / size) := by
  induction numbers with
  | nil =>
    rw [List.sum_nil, Nat.cast_zero, zero_div]
    rfl
  | cons jobs rest ih =>
    rw [List.map_cons, List.sum_cons, ih, exact_share some_there, Exact.finite_add_finite, List.sum_cons, Nat.cast_add,
      add_div]

/-- What the rows of a summary are like: one for each reason that occurs, in the order of priority, with the number of its
entries and their share; no entry is missed, so the numbers add up to that of all entries and the shares, computed
exactly, to one. -/
structure IsSummary [Quantity α] (r : Report α) (rows : List (SummaryRow α)) : Prop where
  one_each : ∀ code, (rows.map (·.code)).count code = if code ∈ r.codes then 1 else 0
  ranked : rows.Pairwise fun row row' => row.code.rank < row'.code.rank
  unexplained_last : ∀ row ∈ rows, row.code = .unexplained → rows.getLast? = some row
  jobs_eq : ∀ row ∈ rows, row.jobs = r.codes.count row.code
  share_eq : ∀ row ∈ rows, row.share = Quantity.ofNat row.jobs / Quantity.ofNat r.size
  sum_jobs : (rows.map (·.jobs)).sum = r.size
  sum_shares : r.entries ≠ [] →
    (rows.map fun row => (Quantity.ofNat row.jobs / Quantity.ofNat r.size : Exact)).sum = Quantity.one

theorem isSummary_summary [Quantity α] (r : Report α) : r.IsSummary r.summary where
  one_each code := by
    rw [map_code_summary, r.nodup_summaryCodes.count]
    simp only [mem_summaryCodes]
  ranked := r.ranked_summary
  unexplained_last _ := getLast?_of_unexplained r.ranked_summary
  jobs_eq row listed := by
    obtain ⟨code, -, rfl⟩ := List.mem_map.mp listed
    exact (r.count_eq code).trans (r.length_idsOf code)
  share_eq row listed := by
    obtain ⟨code, -, rfl⟩ := List.mem_map.mp listed
    rfl
  sum_jobs := r.sum_jobs_summary
  sum_shares some_there := by
    have size_ne : r.size ≠ 0 := mt List.length_eq_zero_iff.mp some_there
    have shares := sum_exact_shares size_ne (r.summary.map (·.jobs))
    rw [sum_jobs_summary, div_self (Nat.cast_ne_zero.mpr size_ne), List.map_map] at shares
    exact shares

/-- The entries of a report are parted by its groups, and by the rows of its summary. -/
theorem summary_partitions [Quantity α] (r : Report α) : r.IsGrouping r.byCode ∧ r.IsSummary r.summary :=
  ⟨r.isGrouping_byCode, r.isSummary_summary⟩

end Report

end Leftover
