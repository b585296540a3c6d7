/-
# Relations on a route

What becomes of the relations of a vehicle when a job is put into its route where the check of relations lets it in. A
strict relation never loses the order of its members, and members that follow each other in it are never parted. As
long as no member is missing in between, its members stand side by side, with no other job among them.

* `Relation.Orders`, `Relation.IsBlock`, `Relation.Ties` : order, a block of members only, neighbours side by side
* `Relation.Ties.insert` : neighbours stay side by side where a job is let in
* `Insertion.admits_of_checkLocking` : what the check lets in
* `Insertion.strict_of_checkLocking` : strict relations after an accepted insertion
* `Insertion.strict_interleaved_row` : where a member is missing, another job can come in between
-/
import Leftover.Check.Catalog
import Leftover.Proofs.Drive
import Leftover.Proofs.Lookup
import Mathlib.Data.List.Chain
import Mathlib.Data.List.Infix

namespace Leftover

/-! ## Neighbours in a list -/

section

variable {β : Type}

/-- A value put between two parts of a list comes between two neighbours only where the parts meet. -/
theorem infix_insert_or {a b : β} {front back : List β} (x : β) (neighbours : [a, b] <:+: front ++ back) :
    [a, b] <:+: front ++ x :: back ∨ front.getLast? = some a ∧ back.head? = some b := by
  obtain ⟨before, behind, joined⟩ := neighbours
  rw [List.append_assoc, List.append_eq_append_iff] at joined
  rcases joined with ⟨middle, front_eq, rest_eq⟩ | ⟨middle, -, back_eq⟩
  · match middle, rest_eq with
    | [], rest_eq =>
      have back_eq : a :: b :: behind = back := rest_eq
      exact Or.inl ⟨front ++ [x], behind, by simp [← back_eq]⟩
    | [y], rest_eq =>
      have pair : a :: b :: behind = y :: back := rest_eq
      obtain ⟨rfl, back_eq⟩ := List.cons.inj pair
      exact Or.inr (by simp [front_eq, ← back_eq])
    | y :: z :: more, rest_eq =>
      have pair : a :: b :: behind = y :: z :: (more ++ back) := rest_eq
      simp only [List.cons.injEq] at pair
      obtain ⟨rfl, rfl, -⟩ := pair
      exact Or.inl ⟨before, more ++ x :: back, by simp [front_eq]⟩
  · exact Or.inl ⟨front ++ x :: middle, behind, by simp [back_eq]⟩

/-- Items each of which stands right before the next one in a list without repeats stand there side by side. -/
theorem infix_of_isChain {xs ys : List β} (distinct : ys.Nodup) (listed : ∀ a ∈ xs, a ∈ ys)
    (chain : xs.IsChain fun a b => [a, b] <:+: ys) : xs <:+: ys := by
  induction xs with
  | nil => exact List.nil_infix
  | cons a rest ih =>
    rw [List.forall_mem_cons] at listed
    cases rest with
    | nil =>
      obtain ⟨before, behind, rfl⟩ := List.append_of_mem listed.1
      exact ⟨before, behind, by simp⟩
    | cons b more =>
      rw [List.isChain_cons_cons] at chain
      obtain ⟨before, behind, pair⟩ := chain.1
      obtain ⟨before', behind', block⟩ := ih listed.2 chain.2
      -- the second item stands at one place only, so the first one stands before the others
      have pair : (before ++ [a]) ++ b :: behind = ys := by
        rw [← pair]
        simp
      have block : before' ++ b :: (more ++ behind') = ys := by
        rw [← block]
        simp
      have fresh : b ∉ before ++ [a] ∧ b ∉ behind := by
        rw [← pair, List.nodup_append, List.nodup_cons] at distinct
        exact ⟨fun member => distinct.2.2 b member b (by simp) rfl, distinct.2.1.1⟩
      obtain ⟨rfl, -, -⟩ := (List.append_cons_inj_of_notMem fresh.1 fresh.2).mp (pair.trans block.symm)
      exact ⟨before, behind', by simp [← block]⟩

end

/-! ## Relations on a list of jobs -/

namespace Relation

variable {r : Relation} {ids : List Text}

/-- Of two members on the route, the one that the relation lists first comes first. -/
def Orders (r : Relation) (ids : List Text) : Prop :=
  ids.Pairwise fun a b => a ∈ r.jobs → b ∈ r.jobs → r.jobs.idxOf a < r.jobs.idxOf b

/-- The members of a relation on a route. -/
def placed (r : Relation) (ids : List Text) : List Text := ids.filter (· ∈ r.jobs)

/-- The members on the route stand next to each other in the order of the relation, with no other job between them. -/
structure IsBlock (r : Relation) (ids : List Text) : Prop where
  orders : r.Orders ids
  together : r.placed ids <:+: ids

/-- The members on the route stand in the order of the relation, and of these any two that follow each other in the
relation stand next to each other. -/
structure Ties (r : Relation) (ids : List Text) : Prop where
  orders : r.Orders ids
  neighbours : ∀ a ∈ ids, ∀ b ∈ ids, a ∈ r.jobs → b ∈ r.jobs → r.jobs.idxOf b = r.jobs.idxOf a + 1 → [a, b] <:+: ids

/-- Every member that the relation lists between two on the route is on the route too. -/
def HasNoGap (r : Relation) (ids : List Text) : Prop :=
  ∀ a ∈ ids, ∀ b ∈ ids, ∀ c ∈ r.jobs, a ∈ r.jobs → b ∈ r.jobs → r.jobs.idxOf a < r.jobs.idxOf c →
    r.jobs.idxOf c < r.jobs.idxOf b → c ∈ ids

instance (r : Relation) (ids : List Text) : Decidable (r.Orders ids) :=
  inferInstanceAs (Decidable (List.Pairwise _ ids))

instance (r : Relation) (ids : List Text) : Decidable (r.IsBlock ids) :=
  decidable_of_iff (r.Orders ids ∧ r.placed ids <:+: ids) ⟨fun h => ⟨h.1, h.2⟩, fun h => ⟨h.orders, h.together⟩⟩

instance (r : Relation) (ids : List Text) : Decidable (r.HasNoGap ids) :=
  inferInstanceAs (Decidable (∀ a ∈ ids, ∀ b ∈ ids, ∀ c ∈ r.jobs, _))

theorem mem_placed {a : Text} : a ∈ r.placed ids ↔ a ∈ ids ∧ a ∈ r.jobs := by simp [placed]

/-- Members on the route stand by their places in the relation. -/
theorem Orders.placed_pairwise (orders : r.Orders ids) :
    (r.placed ids).Pairwise fun a b => r.jobs.idxOf a < r.jobs.idxOf b := by
  rw [placed, List.pairwise_filter]
  exact orders.imp fun lt ha hb => lt (by simpa using ha) (by simpa using hb)

/-- A block keeps neighbours side by side. -/
theorem IsBlock.ties (block : r.IsBlock ids) : r.Ties ids where
  orders := block.orders
  neighbours := by
    intro a ha b hb ra rb next
    refine List.IsInfix.trans ?_ block.together
    have ordered := block.orders.placed_pairwise
    obtain ⟨before, behind, placed_eq⟩ := List.append_of_mem (mem_placed.mpr ⟨ha, ra⟩)
    have member : b ∈ before ++ a :: behind := placed_eq ▸ mem_placed.mpr ⟨hb, rb⟩
    rw [placed_eq, List.pairwise_append, List.pairwise_cons] at ordered
    -- the second of the two comes right after the first, as nothing fits between their places
    rcases List.mem_append.mp member with early | late
    · have := ordered.2.2 b early a (by simp)
      omega
    · rcases List.mem_cons.mp late with rfl | late
      · omega
      · match behind, late with
        | c :: more, late =>
          rcases List.mem_cons.mp late with rfl | late
          · exact ⟨before, more, by simp [placed_eq]⟩
          · have first := ordered.2.1.1 c (by simp)
            have second := (List.pairwise_cons.mp ordered.2.1.2).1 b late
            omega

/-- Two members without another one between them are neighbours in the relation, unless a member is missing. -/
theorem Orders.idxOf_next (orders : r.Orders ids) (once : r.jobs.Nodup) (full : r.HasNoGap ids) {a b : Text}
    {before behind : List Text} (placed_eq : r.placed ids = before ++ a :: b :: behind) :
    r.jobs.idxOf b = r.jobs.idxOf a + 1 := by
  have ordered := orders.placed_pairwise
  have ha : a ∈ r.placed ids := by simp [placed_eq]
  have hb : b ∈ r.placed ids := by simp [placed_eq]
  rw [mem_placed] at ha hb
  rw [placed_eq, List.pairwise_append, List.pairwise_cons, List.pairwise_cons] at ordered
  have lt : r.jobs.idxOf a < r.jobs.idxOf b := ordered.2.1.1 b (by simp)
  by_contra other
  -- a member between the two would stand between them on the route
  have inside : r.jobs.idxOf a + 1 < r.jobs.length := by
    have := List.idxOf_lt_length_of_mem hb.2
    omega
  have place : r.jobs.idxOf r.jobs[r.jobs.idxOf a + 1] = r.jobs.idxOf a + 1 := once.idxOf_getElem _ inside
  have between : r.jobs[r.jobs.idxOf a + 1] ∈ r.placed ids := by
    refine mem_placed.mpr ⟨full a ha.1 b hb.1 _ (List.getElem_mem inside) ha.2 hb.2 ?_ ?_, List.getElem_mem inside⟩
    · omega
    · omega
  rw [placed_eq] at between
  rcases List.mem_append.mp between with early | late
  · have := ordered.2.2 _ early a (by simp)
    omega
  · rcases List.mem_cons.mp late with same | late
    · rw [same] at place
      omega
    · rcases List.mem_cons.mp late with same | late
      · rw [same] at place
        omega
      · have := ordered.2.1.2.1 _ late
        omega

/-- Where neighbours are side by side and no member is missing in between, the members stand as a block. -/
theorem Ties.isBlock (ties : r.Ties ids) (distinct : ids.Nodup) (once : r.jobs.Nodup) (full : r.HasNoGap ids) :
    r.IsBlock ids where
  orders := ties.orders
  together := by
    refine infix_of_isChain distinct (fun a member => (mem_placed.mp member).1) ?_
    rw [List.isChain_iff_forall_rel_of_append_cons_cons]
    intro a b before behind placed_eq
    have ha : a ∈ r.placed ids := by simp [placed_eq]
    have hb : b ∈ r.placed ids := by simp [placed_eq]
    rw [mem_placed] at ha hb
    exact ties.neighbours a ha.1 b hb.1 ha.2 hb.2 (ties.orders.idxOf_next once full placed_eq)

/-- What lets a job come between two parts of a route, for a strict relation: if the relation lists the job, then its
members stand on their sides, and those next to it in the relation right beside it; if not, then the job does not part
neighbours. -/
structure Admits (r : Relation) (id : Text) (front back : List Text) : Prop where
  before : id ∈ r.jobs → ∀ a ∈ back, a ∈ r.jobs → ¬r.jobs.idxOf a < r.jobs.idxOf id
  after : id ∈ r.jobs → ∀ b ∈ front, b ∈ r.jobs → ¬r.jobs.idxOf id < r.jobs.idxOf b
  previous : id ∈ r.jobs → ∀ a ∈ front ++ back, a ∈ r.jobs → r.jobs.idxOf id = r.jobs.idxOf a + 1 →
    front.getLast? = some a
  next : id ∈ r.jobs → ∀ b ∈ front ++ back, b ∈ r.jobs → r.jobs.idxOf b = r.jobs.idxOf id + 1 → back.head? = some b
  apart : id ∉ r.jobs → ∀ a b, front.getLast? = some a → back.head? = some b → a ∈ r.jobs → b ∈ r.jobs →
    r.jobs.idxOf b ≠ r.jobs.idxOf a + 1

section

variable {id : Text} {front back : List Text}

/-- With one more job on the route, the order is kept if it was and the job stands between the members before and after
it. -/
theorem orders_insert_iff :
    r.Orders (front ++ id :: back) ↔ r.Orders (front ++ back) ∧ (id ∈ r.jobs →
      (∀ a ∈ front, a ∈ r.jobs → r.jobs.idxOf a < r.jobs.idxOf id)
        ∧ ∀ b ∈ back, b ∈ r.jobs → r.jobs.idxOf id < r.jobs.idxOf b) := by
  simp only [Orders, List.pairwise_append, List.pairwise_cons, List.forall_mem_cons]
  constructor
  · rintro ⟨first, ⟨behind, second⟩, across⟩
    exact ⟨⟨first, second, fun a ha => (across a ha).2⟩, fun listed =>
      ⟨fun a ha ra => (across a ha).1 ra listed, fun b hb rb => behind b hb listed rb⟩⟩
  · rintro ⟨⟨first, second, across⟩, between⟩
    exact ⟨first, ⟨fun b hb listed rb => (between listed).2 b hb rb, second⟩, fun a ha =>
      ⟨fun ra listed => (between listed).1 a ha ra, across a ha⟩⟩

/-- The order is kept where a new job does not come before a member that it follows, nor behind one that follows it. -/
theorem Orders.insert (orders : r.Orders (front ++ back)) (fresh : id ∉ front ++ back)
    (before : id ∈ r.jobs → ∀ a ∈ back, a ∈ r.jobs → ¬r.jobs.idxOf a < r.jobs.idxOf id)
    (after : id ∈ r.jobs → ∀ b ∈ front, b ∈ r.jobs → ¬r.jobs.idxOf id < r.jobs.idxOf b) :
    r.Orders (front ++ id :: back) := by
  have ne_of_mem : ∀ a ∈ front ++ back, a ∈ r.jobs → r.jobs.idxOf a ≠ r.jobs.idxOf id := by
    intro a ha ra same
    exact fresh ((List.idxOf_inj ra).mp same ▸ ha)
  rw [orders_insert_iff]
  refine ⟨orders, fun listed => ⟨fun a ha ra => ?_, fun b hb rb => ?_⟩⟩
  · have other := ne_of_mem a (List.mem_append_left _ ha) ra
    have not_after := after listed a ha ra
    omega
  · have other := ne_of_mem b (List.mem_append_right _ hb) rb
    have not_before := before listed b hb rb
    omega

variable (admits : r.Admits id front back)

include admits

/-- Neighbours on the route are not parted where a new job is let in. -/
theorem Admits.not_parted (fresh : id ∉ front ++ back) {a b : Text} (ha : a ∈ front)
    (hb : b ∈ back) (ra : a ∈ r.jobs) (rb : b ∈ r.jobs) (next : r.jobs.idxOf b = r.jobs.idxOf a + 1) :
    ¬(front.getLast? = some a ∧ back.head? = some b) := by
  rintro ⟨last, head⟩
  by_cases listed : id ∈ r.jobs
  · -- the job would have to come between the two in the relation as well
    have not_before := admits.before listed b hb rb
    have not_after := admits.after listed a ha ra
    have other : r.jobs.idxOf a ≠ r.jobs.idxOf id :=
      fun same => fresh ((List.idxOf_inj ra).mp same ▸ List.mem_append_left _ ha)
    have other' : r.jobs.idxOf b ≠ r.jobs.idxOf id :=
      fun same => fresh ((List.idxOf_inj rb).mp same ▸ List.mem_append_right _ hb)
    omega
  · exact admits.apart listed a b last head ra rb next

/-- A strict relation keeps its order, and its neighbours side by side, where a new job is let in. -/
theorem Ties.insert (ties : r.Ties (front ++ back)) (fresh : id ∉ front ++ back) : r.Ties (front ++ id :: back) where
  orders := ties.orders.insert fresh admits.before admits.after
  neighbours := by
    intro a ha b hb ra rb next
    have cases_of : ∀ c ∈ front ++ id :: back, c = id ∨ c ∈ front ++ back := by
      intro c hc
      simp only [List.mem_append, List.mem_cons] at hc ⊢
      tauto
    rcases cases_of a ha with rfl | old
    · rcases cases_of b hb with rfl | old'
      · omega
      · -- the job comes right before its successor
        obtain ⟨behind, back_eq⟩ := List.head?_eq_some_iff.mp (admits.next ra b old' rb next)
        exact ⟨front, behind, by simp [back_eq]⟩
    · rcases cases_of b hb with rfl | old'
      · -- the job comes right after its predecessor
        obtain ⟨before, front_eq⟩ := List.getLast?_eq_some_iff.mp (admits.previous rb a old ra next)
        exact ⟨before, back, by simp [front_eq]⟩
      · rcases infix_insert_or id (ties.neighbours a old b old' ra rb next) with together | parted
        · exact together
        · have before := List.mem_of_getLast? parted.1
          have behind := List.mem_of_head? parted.2
          exact absurd parted (admits.not_parted fresh before behind ra rb next)

end

end Relation

/-! ## What the check lets in -/

variable {α : Type}

theorem notMem_drop_iff {β : Type} {xs : List β} {k : Nat} {a : β} :
    a ∉ xs.drop k ↔ ∀ n, xs[n]? = some a → n < k := by
  rw [List.mem_iff_getElem?]
  constructor
  · intro none n stands
    by_contra behind
    refine none ⟨n - k, ?_⟩
    rw [List.getElem?_drop, Nat.add_sub_cancel' (Nat.le_of_not_lt behind)]
    exact stands
  · rintro before ⟨n, stands⟩
    rw [List.getElem?_drop] at stands
    have := before _ stands
    omega

theorem notMem_take_iff {β : Type} {xs : List β} {k : Nat} {a : β} :
    a ∉ xs.take k ↔ ∀ n, xs[n]? = some a → k ≤ n := by
  rw [List.mem_iff_getElem?]
  constructor
  · intro none n stands
    by_contra before
    refine none ⟨n, ?_⟩
    rw [List.getElem?_take, if_pos (Nat.lt_of_not_le before)]
    exact stands
  · rintro behind ⟨n, stands⟩
    rw [List.getElem?_take] at stands
    split at stands
    · have := behind n stands
      omega
    · exact absurd stands (by simp)

theorem Problem.mem_relationsFor {p : Problem α} {id : Text} {r : Relation} :
    r ∈ p.relationsFor id ↔ r ∈ p.relations ∧ id ∈ r.jobs := by
  simp [relationsFor, List.count_eq_zero]

namespace Insertion

/-! The members around a job in a relation are told by their places in it. -/

theorem mem_before {r : Relation} {id a : Text} (member : a ∈ r.jobs) (lt : r.jobs.idxOf a < r.jobs.idxOf id) :
    a ∈ (around r id).1 := (List.mem_take_iff_idxOf_lt member).mpr lt

theorem mem_after {r : Relation} {id b : Text} (member : b ∈ r.jobs) (lt : r.jobs.idxOf id < r.jobs.idxOf b) :
    b ∈ (around r id).2 := by
  refine List.mem_iff_getElem?.mpr ⟨r.jobs.idxOf b - (r.jobs.idxOf id + 1), ?_⟩
  rw [around, List.getElem?_drop, Nat.add_sub_cancel' lt, List.getElem?_idxOf member]

theorem last_before {r : Relation} {id a : Text} (member : a ∈ r.jobs) (place : r.jobs.idxOf id = r.jobs.idxOf a + 1) :
    (around r id).1.getLast? = some a := by
  rw [around, place, List.getLast?_take, if_neg (Nat.succ_ne_zero _), Nat.add_sub_cancel, List.getElem?_idxOf member]
  rfl

theorem first_after {r : Relation} {id b : Text} (member : b ∈ r.jobs) (place : r.jobs.idxOf b = r.jobs.idxOf id + 1) :
    (around r id).2.head? = some b := by
  rw [around, List.head?_drop, ← place, List.getElem?_idxOf member]

end Insertion

variable [Quantity α]

/-- The ids of the jobs of a route. -/
def RouteState.ids (s : RouteState α) : List Text := s.jobs.map (·.id)

/-- A job is found where its id stands. -/
theorem RouteState.placeOf?_eq_some {s : RouteState α} (distinct : s.ids.Nodup) {id : Text} {n : Nat} :
    s.placeOf? id = some n ↔ s.ids[n]? = some id :=
  lastOf?_places distinct

namespace Insertion

variable {i : Insertion α}

section

variable (distinct : i.state.ids.Nodup)

include distinct

theorem placedOr_eq_true {id : Text} {wanted : Int → Bool} :
    i.placedOr id wanted = true ↔ ∀ n : Nat, i.state.ids[n]? = some id → wanted n = true := by
  simp only [placedOr, placeOf?, ← RouteState.placeOf?_eq_some distinct]
  cases i.state.placeOf? id with
  | none => simp
  | some n => simp

variable {k : Nat} (here : i.position = k)

include here

/-- Members on the one side of the job are not on the route's other side. -/
theorem keepsOrder_eq_true {before after : List Text} :
    i.keepsOrder before after = true
      ↔ (∀ a ∈ before, a ∉ i.state.ids.drop k) ∧ ∀ b ∈ after, b ∉ i.state.ids.take k := by
  simp only [keepsOrder, Bool.and_eq_true, List.all_eq_true, placedOr_eq_true distinct, here, notMem_drop_iff,
    notMem_take_iff, decide_eq_true_eq, Int.ofNat_lt, Int.ofNat_le]

/-- The nearest members stand right beside the position. -/
theorem beside_of_keepsNeighbours {before after : List Text} (kept : i.keepsNeighbours before after = true) :
    (∀ a, before.getLast? = some a → a ∈ i.state.ids → (i.state.ids.take k).getLast? = some a)
      ∧ ∀ b, after.head? = some b → b ∈ i.state.ids → (i.state.ids.drop k).head? = some b := by
  simp only [keepsNeighbours, Bool.and_eq_true, Option.all_eq_true, placedOr_eq_true distinct, here,
    decide_eq_true_eq] at kept
  constructor
  · intro a last member
    obtain ⟨n, stands⟩ := List.mem_iff_getElem?.mp member
    have right_before := kept.1 a last n stands
    obtain rfl : k = n + 1 := by omega
    rw [List.getLast?_take, if_neg (Nat.succ_ne_zero n), Nat.add_sub_cancel, stands]
    rfl
  · intro b head member
    obtain ⟨n, stands⟩ := List.mem_iff_getElem?.mp member
    have right_behind := kept.2 b head n stands
    obtain rfl : k = n := by omega
    rw [List.head?_drop]
    exact stands

omit distinct here in
theorem kept_of_checkLocking (kept : i.checkLocking = .ok .satisfied) :
    (∀ r ∈ i.problem.relationsFor i.job.id, i.keepsRelation r = true) ∧ i.splitsNone = true := by
  have both : ((i.problem.relationsFor i.job.id).all i.keepsRelation && i.splitsNone) = true := by
    by_contra broken
    rw [Bool.not_eq_true] at broken
    rw [checkLocking, broken] at kept
    exact absurd (Except.ok.inj kept) (by simp [Evidence.ofKept])
  rw [Bool.and_eq_true, List.all_eq_true] at both
  exact both

/-- A strict relation that lists the job lets it in, if it is kept. -/
theorem admits_of_keepsRelation {r : Relation} (strict : r.type = .strict) (listed : i.job.id ∈ r.jobs)
    (kept : i.keepsRelation r = true) : r.Admits i.job.id (i.state.ids.take k) (i.state.ids.drop k) := by
  simp only [keepsRelation, strict, Bool.and_eq_true] at kept
  obtain ⟨-, order, neighbours⟩ := kept
  rw [keepsOrder_eq_true distinct here] at order
  obtain ⟨previous, next⟩ := beside_of_keepsNeighbours distinct here neighbours
  refine ⟨fun _ a ha ra lt => order.1 a (mem_before ra lt) ha, fun _ b hb rb lt => order.2 b (mem_after rb lt) hb,
    fun _ a ha ra place => ?_, fun _ b hb rb place => ?_, fun other => absurd listed other⟩
  · rw [List.take_append_drop] at ha
    exact previous a (last_before ra place) ha
  · rw [List.take_append_drop] at hb
    exact next b (first_after rb place) hb

omit distinct in
/-- A strict relation of the vehicle that does not list the job lets it in, if no neighbours are split. -/
theorem admits_of_splitsNone {r : Relation} (locked : r ∈ i.problem.relationsOf i.vehicle.id)
    (strict : r.type = .strict) (other : i.job.id ∉ r.jobs) (kept : i.splitsNone = true) :
    r.Admits i.job.id (i.state.ids.take k) (i.state.ids.drop k) := by
  refine ⟨fun listed => absurd listed other, fun listed => absurd listed other, fun listed => absurd listed other,
    fun listed => absurd listed other, fun _ a b last head ra rb place => ?_⟩
  rw [List.head?_drop, RouteState.ids, List.getElem?_map, Option.map_eq_some_iff] at head
  obtain ⟨right, stands, rfl⟩ := head
  have inside : k < i.state.jobs.length := (List.getElem?_eq_some_iff.mp stands).1
  -- there is a stop before the position, and it is the other neighbour
  cases k with
  | zero => exact absurd last (by simp)
  | succ n =>
    have inside' : n < i.state.jobs.length := by omega
    rw [List.getLast?_take, if_neg (Nat.succ_ne_zero n), Nat.add_sub_cancel, RouteState.ids, List.getElem?_map,
      List.getElem?_eq_getElem inside'] at last
    obtain rfl := Option.some.inj last
    have before : i.position - 1 = (n : Int) := by omega
    have between : 0 < i.position ∧ i.position < i.state.size := by
      rw [here, RouteState.size]
      omega
    rw [splitsNone, if_pos between, before, here, itemAt?_natCast, itemAt?_natCast, stands,
      List.getElem?_eq_getElem inside'] at kept
    have joined : i.joins i.state.jobs[n].id right.id r = true := by
      simp only [joins, Bool.and_eq_true, decide_eq_true_eq, Bool.not_eq_true', List.contains_eq_mem,
        decide_eq_false_iff_not]
      exact ⟨⟨⟨⟨strict, other⟩, ra⟩, rb⟩, place⟩
    have some_split : (i.problem.relationsOf i.vehicle.id).any (i.joins i.state.jobs[n].id right.id) = true :=
      List.any_eq_true.mpr ⟨r, locked, joined⟩
    have none_split : (!(i.problem.relationsOf i.vehicle.id).any (i.joins i.state.jobs[n].id right.id)) = true := kept
    rw [some_split] at none_split
    exact absurd none_split (by simp)

/-- What the check of relations lets in, each strict relation of the vehicle lets in. -/
theorem admits_of_checkLocking (kept : i.checkLocking = .ok .satisfied) {r : Relation}
    (locked : r ∈ i.problem.relationsOf i.vehicle.id) (strict : r.type = .strict) :
    r.Admits i.job.id (i.state.ids.take k) (i.state.ids.drop k) := by
  obtain ⟨own, splits⟩ := kept_of_checkLocking kept
  by_cases listed : i.job.id ∈ r.jobs
  · have present : r ∈ i.problem.relations := (List.mem_filter.mp locked).1
    exact admits_of_keepsRelation distinct here strict listed (own r (Problem.mem_relationsFor.mpr ⟨present, listed⟩))
  · exact admits_of_splitsNone here locked strict listed splits

omit distinct here in
/-- The ids of a route with a job put into it. -/
theorem map_id_insertAt : (insertAt i.state.jobs k i.job).map (·.id)
    = i.state.ids.take k ++ i.job.id :: i.state.ids.drop k := by
  simp [insertAt, RouteState.ids, List.map_take, List.map_drop]

/-- On a route with distinct jobs, a strict relation of the vehicle keeps its order, and its neighbours side by side,
where the check of relations lets a new job in. -/
theorem ties_of_checkLocking (new : i.job.id ∉ i.state.ids) (kept : i.checkLocking = .ok .satisfied) {r : Relation}
    (locked : r ∈ i.problem.relationsOf i.vehicle.id) (strict : r.type = .strict) (ties : r.Ties i.state.ids) :
    r.Ties ((insertAt i.state.jobs k i.job).map (·.id)) := by
  rw [map_id_insertAt]
  have admits := admits_of_checkLocking distinct here kept locked strict
  rw [← List.take_append_drop k i.state.ids] at new ties
  exact ties.insert admits new

omit here in
theorem nodup_insertAt (new : i.job.id ∉ i.state.ids) : ((insertAt i.state.jobs k i.job).map (·.id)).Nodup := by
  rw [map_id_insertAt, List.nodup_middle, List.take_append_drop, List.nodup_cons]
  exact ⟨new, distinct⟩

end

/-- Let the jobs of a route be distinct, and let the members of each strict relation of the vehicle that are on the
route stand as a block. Wherever the check of relations lets a new job in, the members of each such relation still stand
in its order, and any two that follow each other in it stand next to each other. They stand as a block again if the
relation lists no job twice and no member is missing between two that are on the route. -/
theorem strict_of_checkLocking {p : Problem α} {s : RouteState α} {job : Job α} {k : Nat} (distinct : s.ids.Nodup)
    (new : job.id ∉ s.ids) (blocks : ∀ r ∈ p.relationsOf s.vehicle.id, r.type = .strict → r.IsBlock s.ids)
    (kept : (⟨job, s, k, p⟩ : Insertion α).checkLocking = .ok .satisfied) :
    ∀ r ∈ p.relationsOf s.vehicle.id, r.type = .strict → r.Ties ((insertAt s.jobs k job).map (·.id))
      ∧ (r.jobs.Nodup → r.HasNoGap ((insertAt s.jobs k job).map (·.id)) →
        r.IsBlock ((insertAt s.jobs k job).map (·.id))) := by
  intro r locked strict
  have ties : r.Ties ((insertAt s.jobs k job).map (·.id)) :=
    ties_of_checkLocking (i := ⟨job, s, k, p⟩) distinct rfl new kept locked strict (blocks r locked strict).ties
  have distinct' : ((insertAt s.jobs k job).map (·.id)).Nodup := nodup_insertAt (i := ⟨job, s, k, p⟩) distinct new
  exact ⟨ties, fun once full => ties.isBlock distinct' once full⟩

/-! ### A row of three parcels -/

/-- The relation that three parcels are served one right after the other. -/
def row : Relation := ⟨.strict, ["a", "b", "c"], "shuttle"⟩

/-- The plan of the shuttle with that row, and a fourth parcel. -/
def rowPlan : Problem Exact where
  jobs := [RouteState.parcel "a", RouteState.parcel "b", RouteState.parcel "c", RouteState.parcel "d"]
  fleet := [RouteState.shuttle]
  relations := [row]
  matrices := [("car", RouteState.twoPlaces)]

/-- The route of the shuttle with the second parcel of the row missing. -/
def rowRoute : RouteState Exact where
  vehicle := RouteState.shuttle
  matrix := RouteState.twoPlaces
  jobs := [RouteState.parcel "a", RouteState.parcel "c"]
  origin := ⟨0, 0, 0⟩
  base := ⟨[⟨RouteState.parcel "a", .finite 7, .finite 7, .finite 12, 0, .finite 9⟩,
    ⟨RouteState.parcel "c", .finite 12, .finite 12, .finite 17, 0, .finite 9⟩], 0, .finite 24, .finite 18, true⟩
  walk_eq := by decide +kernel

/-- Where a member of the row is missing, another job is let in between the others. -/
theorem strict_interleaved_row :
    rowRoute.ids.Nodup ∧ (RouteState.parcel "d").id ∉ rowRoute.ids
      ∧ (∀ r ∈ rowPlan.relationsOf rowRoute.vehicle.id, r.type = .strict → r.IsBlock rowRoute.ids)
      ∧ (⟨RouteState.parcel "d", rowRoute, (1 : Nat), rowPlan⟩ : Insertion Exact).checkLocking = .ok .satisfied
      ∧ ¬∀ r ∈ rowPlan.relationsOf rowRoute.vehicle.id, r.type = .strict →
        r.IsBlock ((insertAt rowRoute.jobs (1 : Nat) (RouteState.parcel "d")).map (·.id)) := by
  decide +kernel

theorem strict_of_checkLocking_row :
    rowRoute.ids.Nodup ∧ (RouteState.parcel "b").id ∉ rowRoute.ids
      ∧ (∀ r ∈ rowPlan.relationsOf rowRoute.vehicle.id, r.type = .strict → r.IsBlock rowRoute.ids)
      ∧ (⟨RouteState.parcel "b", rowRoute, (1 : Nat), rowPlan⟩ : Insertion Exact).checkLocking = .ok .satisfied
      ∧ row.IsBlock ((insertAt rowRoute.jobs (1 : Nat) (RouteState.parcel "b")).map (·.id)) := by
  have distinct : rowRoute.ids.Nodup := by decide +kernel
  have new : (RouteState.parcel "b").id ∉ rowRoute.ids := by decide +kernel
  have blocks : ∀ r ∈ rowPlan.relationsOf rowRoute.vehicle.id, r.type = .strict → r.IsBlock rowRoute.ids := by
    decide +kernel
  have kept : (⟨RouteState.parcel "b", rowRoute, (1 : Nat), rowPlan⟩ : Insertion Exact).checkLocking
      = .ok .satisfied := by decide +kernel
  have locked : row ∈ rowPlan.relationsOf rowRoute.vehicle.id := by decide +kernel
  have full : row.HasNoGap ((insertAt rowRoute.jobs (1 : Nat) (RouteState.parcel "b")).map (·.id)) := by decide +kernel
  exact ⟨distinct, new, blocks, kept,
    (strict_of_checkLocking distinct new blocks kept row locked rfl).2 (by decide +kernel) full⟩

end Insertion

end Leftover
