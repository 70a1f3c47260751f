import DocQuery.Proofs.SortOrder

/-!
# Sorting in order and in place

A document comes before another if it precedes it at the first path where one of them precedes the other, turned round
for keys that descend (`Before`).  Unless some path has both identifiers and other objects, sorting puts no document
behind one that it comes before, and leaves those that tie on every key in their order
(`sort_in_order_and_stable`).  No other list has the documents in such an order (`eq_sort_of_stable`).
-/
namespace DocQuery

namespace Value

/-- What precedes what: nothing a value, a kind the kinds of higher rank, and values of one kind by what they are. -/
inductive Precedes : Option Value → Option Value → Prop
  | missing (v : Value) : Precedes none (some v)
  | kind {a b : Value} (h : a.kindRank < b.kindRank) : Precedes (some a) (some b)
  | number {a b : Value} {x y : Float} (ha : a.number? = some x) (hb : b.number? = some y) (h : x < y) :
      Precedes (some a) (some b)
  | text {s t : String} (h : s < t) : Precedes (some (str s)) (some (str t))
  | truth : Precedes (some (bool false)) (some (bool true))
  | identifier {a b : Value} {x y : ObjectId} (ha : ObjectId.ofValue? a = some x) (hb : ObjectId.ofValue? b = some y)
      (h : compare x.bytes y.bytes = .lt) : Precedes (some a) (some b)

def Ties (a b : Option Value) : Prop := ¬ Precedes a b ∧ ¬ Precedes b a

theorem precedes_of_compared {a b : Value} {o : Ordering} (h : Compared a b o) (ho : o = .lt) :
    Precedes (some a) (some b) := by
  cases h with
  | identifiers ha hb => exact .identifier ha hb (by rw [← ObjectId.compare_eq, ho])
  | texts ha hb =>
    subst ha hb
    exact .text (compare_lt_iff_lt.1 ho)
  | @truths s t ha hb =>
    subst ha hb
    cases s <;> cases t
    case false.true => exact .truth
    all_goals cases ho
  | numbers ha hb h =>
    rw [ho] at h
    exact .number ha hb (orderFloats?_lt_iff.1 h)

/-- **Values are sorted before those that they precede.** -/
theorem sortOrder_lt_iff {a b : Option Value} : sortOrder a b = .lt ↔ Precedes a b := by
  constructor
  · intro h
    cases a with
    | none =>
      cases b with
      | none => cases h
      | some b => exact .missing b
    | some a =>
      cases b with
      | none => cases h
      | some b =>
        cases ho : a.order? b with
        | some o =>
          rw [sortOrder_some_of_order? ho] at h
          exact precedes_of_compared (order?_eq_some_iff.1 ho) h
        | none =>
          rw [sortOrder, ho, Option.getD_none, Nat.compare_eq_lt] at h
          exact .kind h
  · intro h
    cases h with
    | missing v => rfl
    | @kind a b h =>
      cases ho : a.order? b with
      | some o => exact absurd (kindRank_eq_of_order? ho) (Nat.ne_of_lt h)
      | none => rw [sortOrder, ho, Option.getD_none, Nat.compare_eq_lt.2 h]
    | number ha hb h => exact sortOrder_some_of_order? (order?_eq_some_iff.2 (.numbers ha hb (orderFloats?_lt_iff.2 h)))
    | text h => rw [sortOrder_some_of_order? (order?_str _ _), compare_lt_iff_lt.2 h]
    | truth => rfl
    | identifier ha hb h =>
      rw [sortOrder_some_of_order? (order?_eq_some_iff.2 (.identifiers ha hb)), ObjectId.compare_eq, h]

theorem sortOrder_eq_iff {a b : Option Value} : sortOrder a b = .eq ↔ Ties a b := by
  rw [Ties, ← sortOrder_lt_iff, ← sortOrder_lt_iff, sortOrder_swap a b]
  cases sortOrder a b <;> simp

end Value

open Value

namespace SortKeys

/-- A document comes before another: it precedes it at the path of a key that ascends, or follows it at the path of one
that descends, and they tie on all keys in front of that one. -/
inductive Before : SortKeys → Value → Value → Prop
  | ascending {path : String} {direction : Int} {r : SortKeys} {a b : Value} (hdirection : 0 ≤ direction)
      (h : Precedes (a.path? path) (b.path? path)) : Before ((path, direction) :: r) a b
  | descending {path : String} {direction : Int} {r : SortKeys} {a b : Value} (hdirection : direction < 0)
      (h : Precedes (b.path? path) (a.path? path)) : Before ((path, direction) :: r) a b
  | tied {key : String × Int} {r : SortKeys} {a b : Value} (hties : Ties (a.path? key.1) (b.path? key.1))
      (h : Before r a b) : Before (key :: r) a b

theorem keyOrder_eq_iff {key : String × Int} {a b : Value} :
    keyOrder key a b = .eq ↔ Ties (a.path? key.1) (b.path? key.1) := by
  rw [keyOrder, ← sortOrder_eq_iff]
  split
  · rfl
  · cases sortOrder (a.path? key.1) (b.path? key.1) <;> simp

theorem keyOrder_lt_iff {key : String × Int} {a b : Value} : keyOrder key a b = .lt ↔
    0 ≤ key.2 ∧ Precedes (a.path? key.1) (b.path? key.1) ∨ key.2 < 0 ∧ Precedes (b.path? key.1) (a.path? key.1) := by
  rw [keyOrder, ← sortOrder_lt_iff, ← sortOrder_lt_iff, sortOrder_swap (a.path? key.1)]
  split
  · rename_i hascending
    simp [hascending]
  · rename_i hdescending
    simp [hdescending, Int.not_le.1 hdescending]

theorem order_lt_iff {a b : Value} : ∀ {keys : SortKeys}, order keys a b = .lt ↔ Before keys a b
  | [] => ⟨fun h => (by cases h), fun h => (by cases h)⟩
  | (path, direction) :: r => by
    rw [order_cons, Ordering.then_eq_lt, keyOrder_lt_iff, keyOrder_eq_iff, order_lt_iff]
    constructor
    · rintro ((⟨hdirection, h⟩ | ⟨hdirection, h⟩) | ⟨hties, h⟩)
      · exact .ascending hdirection h
      · exact .descending hdirection h
      · exact .tied hties h
    · intro h
      cases h with
      | ascending hdirection h => exact .inl (.inl ⟨hdirection, h⟩)
      | descending hdirection h => exact .inl (.inr ⟨hdirection, h⟩)
      | tied hties h => exact .inr ⟨hties, h⟩

theorem order_eq_iff {a b : Value} : ∀ {keys : SortKeys},
    order keys a b = .eq ↔ ∀ key ∈ keys, Ties (a.path? key.1) (b.path? key.1)
  | [] => ⟨fun _ _ hkey => (by cases hkey), fun _ => rfl⟩
  | key :: r => by rw [order_cons, Ordering.then_eq_eq, keyOrder_eq_iff, order_eq_iff, List.forall_mem_cons]

theorem decides_of_ordersOn {keys : SortKeys} {docs : List Value} (h : OrdersOn keys.order docs) :
    Decides (fun a b => order keys a b == .lt) (fun a b => order keys a b ≠ .gt) docs where
  ahead a _ b _ hlt := by
    rw [eq_of_beq hlt]
    rintro ⟨⟩
  behind a _ b _ hlt := by
    rw [order_swap a b]
    rw [beq_eq_false_iff_ne] at hlt
    revert hlt
    cases order keys a b <;> decide
  trans _ ha _ hb _ hc := h.trans ha hb hc

theorem not_before_iff {keys : SortKeys} {a b : Value} : ¬ Before keys b a ↔ order keys a b ≠ .gt := by
  rw [← order_lt_iff, order_swap a b]
  cases order keys a b <;> decide

/-- Some documents have identifiers or other objects at a path, but not both. -/
def Unmixed (path : String) (docs : List Value) : Prop :=
  ∀ a ∈ docs, ∀ b ∈ docs, ∀ v ∈ a.path? path, ∀ w ∈ b.path? path,
    (ObjectId.ofValue? v).isSome = true → w.isObj = true → (ObjectId.ofValue? w).isSome = true

theorem Unmixed.not_tornAt {path : String} {docs : List Value} (h : Unmixed path docs) : ¬ TornAt path docs := by
  rintro ⟨a, ha, b, hb, c, hc, htorn⟩
  generalize hv : a.path? path = v at htorn
  generalize hw : b.path? path = w at htorn
  generalize c.path? path = u at htorn
  obtain ⟨first, object, other, -, -⟩ := htorn
  have hid := h a ha b hb _ hv _ hw (by rw [first]; rfl) object
  rw [other] at hid
  cases hid

/-- **Sorting is in order and stable.**  Unless a path among the keys has both identifiers and other objects, the
sorted documents are the same ones, none of them stands behind one that it comes before, and those that tie on every
key stand in the order they had. -/
theorem sort_in_order_and_stable (keys : SortKeys) {docs : List Value} (hdocs : ∀ doc ∈ docs, doc.WellFormed)
    (hkeys : ∀ key ∈ keys, Unmixed key.1 docs) :
    (sort keys docs).Perm docs ∧
    (sort keys docs).Pairwise (fun earlier later => ¬ Before keys later earlier) ∧
    ∀ group : Value → Bool,
      (∀ a ∈ docs, ∀ b ∈ docs, group a = true → group b = true → ∀ key ∈ keys, Ties (a.path? key.1) (b.path? key.1)) →
      (sort keys docs).filter group = docs.filter group := by
  have horder := ordersOn_order hdocs keys fun key hkey => (hkeys key hkey).not_tornAt
  refine ⟨sort_perm keys docs, ?_, fun group hgroup => sort_filter_group fun a ha b hb hga hgb => ?_⟩
  · exact (sort_pairwise_of_decides (decides_of_ordersOn horder)).imp not_before_iff.2
  · rw [order_eq_iff.2 (hgroup a ha b hb hga hgb)]
    rintro ⟨⟩

def players : List Value :=
  [.obj [("name", .str "Ann"), ("score", .int 2)], .obj [("name", .str "Bob")],
    .obj [("name", .str "Cid"), ("score", .float 3.5)], .obj [("name", .str "Dan"), ("score", .int 2)]]

def scoredTwo (doc : Value) : Bool := sortOrder (doc.path? "score") (some (.int 2)) == .eq

theorem sort_in_order_and_stable_players : (∀ doc ∈ players, doc.WellFormed) ∧
    (∀ key ∈ [("score", -1)], Unmixed key.1 players) ∧
    (sort [("score", -1)] players).Pairwise (fun earlier later => ¬ Before [("score", -1)] later earlier) ∧
    (sort [("score", -1)] players).filter scoredTwo =
      [.obj [("name", .str "Ann"), ("score", .int 2)], .obj [("name", .str "Dan"), ("score", .int 2)]] := by
  have hdocs : ∀ doc ∈ players, doc.WellFormed := by
    simp only [players, List.forall_mem_cons]
    refine ⟨.obj (by decide) ?_, .single (.str _), .obj (by decide) ?_, .obj (by decide) ?_,
      fun _ hdoc => by cases hdoc⟩
    · exact List.forall_mem_cons.2 ⟨.str _, List.forall_mem_singleton.2 (.int 2)⟩
    · exact List.forall_mem_cons.2 ⟨.str _, List.forall_mem_singleton.2 (.float rfl)⟩
    · exact List.forall_mem_cons.2 ⟨.str _, List.forall_mem_singleton.2 (.int 2)⟩
  have hkeys : ∀ key ∈ [("score", -1)], Unmixed key.1 players := by
    unfold Unmixed
    decide
  have htied : ∀ a ∈ players, ∀ b ∈ players, scoredTwo a = true → scoredTwo b = true →
      sortOrder (a.path? "score") (b.path? "score") = .eq := by decide
  obtain ⟨-, hpairwise, hstable⟩ := sort_in_order_and_stable [("score", -1)] hdocs hkeys
  refine ⟨hdocs, hkeys, hpairwise, hstable scoredTwo fun a ha b hb hga hgb key hkey => ?_⟩
  rw [List.mem_singleton.1 hkey]
  exact sortOrder_eq_iff.1 (htied a ha b hb hga hgb)

/-! ## No other list is in order and stable -/

theorem order_self (keys : SortKeys) (a : Value) : order keys a a = .eq := by
  have hself := order_swap a a keys
  revert hself
  cases order keys a a <;> decide

theorem order_ne_gt_of_mem {keys : SortKeys} {a b : Value} {docs : List Value}
    (h : (a :: docs).Pairwise fun a b => order keys a b ≠ .gt) (hb : b ∈ a :: docs) : order keys a b ≠ .gt := by
  rcases List.mem_cons.1 hb with rfl | hb
  · rw [order_self]
    rintro ⟨⟩
  · exact (List.pairwise_cons.1 h).1 b hb

theorem eq_of_filter_tied {keys : SortKeys} : ∀ {docs docs' : List Value}, docs.Perm docs' →
    docs.Pairwise (fun a b => order keys a b ≠ .gt) → docs'.Pairwise (fun a b => order keys a b ≠ .gt) →
    (∀ x ∈ docs, docs.filter (order keys x · == .eq) = docs'.filter (order keys x · == .eq)) → docs = docs'
  | [], docs', hperm, _, _, _ => hperm.nil_eq
  | a :: docs, [], hperm, _, _, _ => absurd hperm.length_eq (Nat.succ_ne_zero _)
  | a :: docs, b :: docs', hperm, h, h', hfilter => by
    -- each of the first documents is in the other list, so neither comes before the other
    have hab : order keys a b ≠ .gt := order_ne_gt_of_mem h (hperm.mem_iff.2 List.mem_cons_self)
    have hba : order keys b a ≠ .gt := order_ne_gt_of_mem h' (hperm.mem_iff.1 List.mem_cons_self)
    have htie : order keys a b = .eq := by
      rw [order_swap a b] at hba
      revert hab hba
      cases order keys a b <;> decide
    have hfirst := hfilter a List.mem_cons_self
    rw [List.filter_cons_of_pos (by rw [order_self]; rfl), List.filter_cons_of_pos (by rw [htie]; rfl)] at hfirst
    obtain rfl : a = b := (List.cons.inj hfirst).1
    rw [eq_of_filter_tied hperm.cons_inv h.of_cons h'.of_cons fun x hx => ?_]
    have hrest := hfilter x (List.mem_cons_of_mem _ hx)
    rw [List.filter_cons, List.filter_cons] at hrest
    split at hrest
    · exact (List.cons.inj hrest).2
    · exact hrest

/-- **No other list is in order and stable.** -/
theorem eq_sort_of_stable {keys : SortKeys} {docs docs' : List Value} (hdocs : ∀ doc ∈ docs, doc.WellFormed)
    (hkeys : ∀ key ∈ keys, Unmixed key.1 docs) (hperm : docs'.Perm docs)
    (hpairwise : docs'.Pairwise fun earlier later => ¬ Before keys later earlier)
    (hstable : ∀ group : Value → Bool,
      (∀ a ∈ docs, ∀ b ∈ docs, group a = true → group b = true → ∀ key ∈ keys, Ties (a.path? key.1) (b.path? key.1)) →
      docs'.filter group = docs.filter group) : docs' = sort keys docs := by
  have horder := ordersOn_order hdocs keys fun key hkey => (hkeys key hkey).not_tornAt
  have hsorted := sort_pairwise_of_decides (decides_of_ordersOn horder)
  refine eq_of_filter_tied (hperm.trans (sort_perm keys docs).symm) (hpairwise.imp not_before_iff.1) hsorted ?_
  intro x hx
  have hxmem : x ∈ docs := hperm.mem_iff.1 hx
  have htied : ∀ a ∈ docs, ∀ b ∈ docs, (order keys x a == .eq) = true → (order keys x b == .eq) = true →
      order keys a b = .eq := fun a ha b hb hxa hxb =>
    (horder.congr_left (a := ⟨x, hxmem⟩) (b := ⟨a, ha⟩) (c := ⟨b, hb⟩) (eq_of_beq hxa)).symm.trans (eq_of_beq hxb)
  rw [hstable _ fun a ha b hb hxa hxb => order_eq_iff.1 (htied a ha b hb hxa hxb)]
  refine (sort_filter_group fun a ha b hb hxa hxb => ?_).symm
  rw [htied a ha b hb hxa hxb]
  rintro ⟨⟩

end SortKeys

end DocQuery
