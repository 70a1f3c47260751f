import DocQuery.Proofs.Change
import DocQuery.Proofs.Sort
import DocQuery.Proofs.ValueOrder

/-!
# When sort keys order documents

The order used for sorting can always be turned round, and values of different kinds follow the ranks of their kinds.
It is transitive but where an identifier stands in front of another object, which is on the place of every identifier,
and that in front of a lesser identifier (`Value.sortOrder_trans_iff`).  So sort keys compare documents as an order
does unless some key finds two identifiers and another object (`sort_keys_order_iff`).
-/
namespace DocQuery

namespace Value

theorem Compared.swap {a b : Value} {o : Ordering} (h : Compared a b o) : Compared b a o.swap := by
  cases h with
  | identifiers ha hb =>
    rw [← ObjectId.compare_swap]
    exact .identifiers hb ha
  | texts ha hb =>
    rw [← Std.OrientedOrd.eq_swap]
    exact .texts hb ha
  | truths ha hb =>
    rw [← Std.OrientedOrd.eq_swap]
    exact .truths hb ha
  | numbers ha hb h =>
    refine .numbers hb ha ?_
    rw [orderFloats?_swap, h]
    rfl

theorem order?_swap (a b : Value) : b.order? a = (a.order? b).map .swap := by
  cases h : a.order? b with
  | some o => exact order?_eq_some_iff.2 (order?_eq_some_iff.1 h).swap
  | none =>
    cases h' : b.order? a with
    | none => rfl
    | some o =>
      have hback := order?_eq_some_iff.2 (order?_eq_some_iff.1 h').swap
      rw [h] at hback
      cases hback

/-- **The order turned round is the reverse order.** -/
theorem sortOrder_swap (a b : Option Value) : sortOrder b a = (sortOrder a b).swap := by
  cases a with
  | none => cases b <;> rfl
  | some a =>
    cases b with
    | none => rfl
    | some b =>
      rw [sortOrder, sortOrder, order?_swap a b]
      cases a.order? b with
      | none => exact Std.OrientedOrd.eq_swap
      | some o => rfl

theorem sortOrder_some_of_order? {a b : Value} {o : Ordering} (h : a.order? b = some o) :
    sortOrder (some a) (some b) = o := by
  rw [sortOrder, h, Option.getD_some]

theorem kindRank_le_of_sortOrder {a b : Value} (h : sortOrder (some a) (some b) ≠ .gt) : a.kindRank ≤ b.kindRank := by
  cases ho : a.order? b with
  | some o => exact Nat.le_of_eq (kindRank_eq_of_order? ho)
  | none =>
    rw [sortOrder, ho, Option.getD_none, Ne, Nat.compare_eq_gt] at h
    exact Nat.le_of_not_lt h

/-! ## Where it is transitive -/

/-- An identifier in front of another object, and that in front of a lesser identifier. -/
inductive Torn : Option Value → Option Value → Option Value → Prop
  | mk {a b c : Value} {x z : ObjectId} (first : ObjectId.ofValue? a = some x) (object : b.isObj = true)
      (other : ObjectId.ofValue? b = none) (last : ObjectId.ofValue? c = some z) (lesser : z.compare x = .lt) :
      Torn (some a) (some b) (some c)

variable {a b c : Value}

theorem order?_object_none (hb : b.isObj = true) (hother : ObjectId.ofValue? b = none) (a : Value) :
    a.order? b = none := by
  cases h : a.order? b with
  | none => rfl
  | some o =>
    cases order?_eq_some_iff.1 h with
    | identifiers _ hid =>
      rw [hother] at hid
      cases hid
    | texts _ heq | truths _ heq =>
      rw [heq] at hb
      cases hb
    | numbers _ hnum _ =>
      cases b with
      | obj fs => cases hnum
      | _ => cases hb

theorem sortOrder_beside_object {x : ObjectId} (ha : ObjectId.ofValue? a = some x) (hb : b.isObj = true)
    (hother : ObjectId.ofValue? b = none) : sortOrder (some a) (some b) = .eq := by
  obtain ⟨s, rfl, -⟩ := ObjectId.eq_single_of_ofValue? ha
  rw [sortOrder, order?_object_none hb hother, Option.getD_none]
  cases b with
  | obj fs => rfl
  | _ => cases hb

theorem kindRank_of_number? {a : Value} {x : Float} (ha : a.number? = some x) : a.kindRank = 1 := by
  cases a with
  | int _ | float _ => rfl
  | _ => cases ha

theorem sortOrder_numbers {x y : Float} (ha : a.number? = some x) (hb : b.number? = some y) :
    sortOrder (some a) (some b) = (orderFloats? x y).getD .eq := by
  rw [sortOrder, order?_numbers ha hb, kindRank_of_number? ha, kindRank_of_number? hb]
  rfl

/-- **Only identifiers torn apart by another object come back in the wrong order.** -/
theorem sortOrder_trans_or_torn (ha : a.WellFormed) (hb : b.WellFormed) (hc : c.WellFormed)
    (hab : sortOrder (some a) (some b) ≠ .gt) (hbc : sortOrder (some b) (some c) ≠ .gt) :
    sortOrder (some a) (some c) ≠ .gt ∨ Torn (some a) (some b) (some c) := by
  by_cases hgt : sortOrder (some a) (some c) = .gt
  swap
  · exact .inl hgt
  -- the ranks go round in a circle, so all three are of one kind
  have hca : c.kindRank ≤ a.kindRank := by
    refine kindRank_le_of_sortOrder ?_
    rw [sortOrder_swap (some a), hgt]
    rintro ⟨⟩
  have hrank : a.kindRank = b.kindRank := by
    have := kindRank_le_of_sortOrder hab
    have := kindRank_le_of_sortOrder hbc
    omega
  obtain ⟨o, ho, hcompared⟩ : ∃ o, .gt = o ∧ Compared a c o := by
    cases ho : a.order? c with
    | some o => exact ⟨o, hgt.symm.trans (sortOrder_some_of_order? ho), order?_eq_some_iff.1 ho⟩
    | none =>
      rw [sortOrder, ho, Option.getD_none, Nat.compare_eq_gt] at hgt
      have := kindRank_le_of_sortOrder hbc
      omega
  cases hcompared with
  | @identifiers x z hx hz =>
    obtain ⟨s, rfl, -⟩ := ObjectId.eq_single_of_ofValue? hx
    cases hy : ObjectId.ofValue? b with
    | none =>
      refine .inr (.mk hx ?_ hy hz ?_)
      · cases b with
        | obj fs => rfl
        | _ => cases hrank
      · rw [ObjectId.compare_swap, ← ho]
        rfl
    | some y =>
      rw [sortOrder_some_of_order? (order?_eq_some_iff.2 (.identifiers hx hy))] at hab
      rw [sortOrder_some_of_order? (order?_eq_some_iff.2 (.identifiers hy hz))] at hbc
      exact absurd ho.symm (ObjectId.compare_trans hab hbc)
  | @texts s t hs ht =>
    subst hs ht
    cases b with
    | str u =>
      rw [sortOrder_some_of_order? (order?_str _ _), Ne, ← Ordering.isLE_iff_ne_gt] at hab hbc
      exact absurd ho.symm (Ordering.isLE_iff_ne_gt.1 (Std.TransCmp.isLE_trans hab hbc))
    | _ => cases hrank
  | @truths s t hs ht =>
    subst hs ht
    cases b with
    | bool u =>
      rw [sortOrder_some_of_order? (order?_bool _ _), Ne, ← Ordering.isLE_iff_ne_gt] at hab hbc
      exact absurd ho.symm (Ordering.isLE_iff_ne_gt.1 (Std.TransCmp.isLE_trans hab hbc))
    | _ => cases hrank
  | @numbers x z o hx hz h =>
    have hy : ∃ y, b.number? = some y := by
      rw [kindRank_of_number? hx] at hrank
      cases b with
      | int _ | float _ => exact ⟨_, rfl⟩
      | _ => cases hrank
    obtain ⟨y, hy⟩ := hy
    rw [sortOrder_numbers hx hy] at hab
    rw [sortOrder_numbers hy hz] at hbc
    refine absurd (h.trans (congrArg some ho.symm)) (orderFloats?_trans (ha.isNumber hx) (hb.isNumber hy)
      (hc.isNumber hz) (fun hxy => hab ?_) fun hyz => hbc ?_)
    · rw [hxy]
      rfl
    · rw [hyz]
      rfl

theorem Torn.broken {a b c : Option Value} (h : Torn a b c) :
    sortOrder a b = .eq ∧ sortOrder b c = .eq ∧ sortOrder a c = .gt := by
  obtain ⟨first, object, other, last, lesser⟩ := h
  refine ⟨sortOrder_beside_object first object other, ?_, ?_⟩
  · rw [sortOrder_swap, sortOrder_beside_object last object other]
    rfl
  · rw [sortOrder_some_of_order? (order?_eq_some_iff.2 (.identifiers first last)), ObjectId.compare_swap, lesser]
    rfl

/-- **The order is transitive just where identifiers are not torn apart.** -/
theorem sortOrder_trans_iff {a b c : Option Value} (ha : ∀ v ∈ a, v.WellFormed) (hb : ∀ v ∈ b, v.WellFormed)
    (hc : ∀ v ∈ c, v.WellFormed) :
    (sortOrder a b ≠ .gt → sortOrder b c ≠ .gt → sortOrder a c ≠ .gt) ↔ ¬ Torn a b c := by
  constructor
  · intro htrans htorn
    obtain ⟨hab, hbc, hac⟩ := htorn.broken
    exact htrans (by rw [hab]; rintro ⟨⟩) (by rw [hbc]; rintro ⟨⟩) hac
  · intro htorn hab hbc
    cases a with
    | none => cases c <;> rintro ⟨⟩
    | some a =>
      cases b with
      | none => exact absurd rfl hab
      | some b =>
        cases c with
        | none => exact absurd rfl hbc
        | some c =>
          exact (sortOrder_trans_or_torn (ha a rfl) (hb b rfl) (hc c rfl) hab hbc).resolve_right htorn

end Value

open Value

/-- A way of comparing is an order on the members of a list, up to what is on one place. -/
def OrdersOn (cmp : Value → Value → Ordering) (docs : List Value) : Prop :=
  Std.TransCmp fun a b : {doc // doc ∈ docs} => cmp a b

def TornAt (path : String) (docs : List Value) : Prop :=
  ∃ a ∈ docs, ∃ b ∈ docs, ∃ c ∈ docs, Torn (a.path? path) (b.path? path) (c.path? path)

namespace OrdersOn

variable {docs : List Value} {cmp cmp' : Value → Value → Ordering}

theorem trans (h : OrdersOn cmp docs) {a b c : Value} (ha : a ∈ docs) (hb : b ∈ docs) (hc : c ∈ docs)
    (hab : cmp a b ≠ .gt) (hbc : cmp b c ≠ .gt) : cmp a c ≠ .gt := by
  rw [Ne, ← Ordering.isLE_iff_ne_gt] at *
  exact h.isLE_trans (a := ⟨a, ha⟩) (b := ⟨b, hb⟩) (c := ⟨c, hc⟩) hab hbc

theorem swap (h : OrdersOn cmp docs) : OrdersOn (fun a b => (cmp a b).swap) docs := by
  have hswap : (fun a b : {doc // doc ∈ docs} => (cmp a b).swap) = fun a b => cmp b.val a.val := by
    funext a b
    exact (h.eq_swap (a := b) (b := a)).symm
  unfold OrdersOn at *
  rw [hswap]
  exact Std.TransCmp.opposite

theorem andThen (h : OrdersOn cmp docs) (h' : OrdersOn cmp' docs) :
    OrdersOn (fun a b => (cmp a b).then (cmp' a b)) docs := by
  unfold OrdersOn at *
  exact inferInstanceAs (Std.TransCmp (compareLex (fun a b : {doc // doc ∈ docs} => cmp a b) fun a b => cmp' a b))

end OrdersOn

namespace SortKeys

def keyOrder (key : String × Int) (a b : Value) : Ordering :=
  if 0 ≤ key.2 then sortOrder (a.path? key.1) (b.path? key.1) else (sortOrder (a.path? key.1) (b.path? key.1)).swap

theorem order_cons (key : String × Int) (r : SortKeys) (a b : Value) :
    order (key :: r) a b = (keyOrder key a b).then (order r a b) := by
  rw [order, keyOrder]
  by_cases hascending : 0 ≤ key.2
  · rw [if_pos hascending]
    cases sortOrder (a.path? key.1) (b.path? key.1) <;> simp [hascending]
  · rw [if_neg hascending]
    cases sortOrder (a.path? key.1) (b.path? key.1) <;> simp [hascending]

theorem keyOrder_swap (key : String × Int) (a b : Value) : keyOrder key b a = (keyOrder key a b).swap := by
  rw [keyOrder, keyOrder, sortOrder_swap (a.path? key.1)]
  split <;> rfl

theorem order_swap (a b : Value) : ∀ keys : SortKeys, order keys b a = (order keys a b).swap
  | [] => rfl
  | key :: r => by rw [order_cons, order_cons, Ordering.swap_then, keyOrder_swap key a b, order_swap a b r]

variable {docs : List Value}

theorem ordersOn_path_iff (hdocs : ∀ doc ∈ docs, doc.WellFormed) {path : String} :
    OrdersOn (fun a b => sortOrder (a.path? path) (b.path? path)) docs ↔ ¬ TornAt path docs := by
  have hwf : ∀ doc ∈ docs, ∀ v ∈ doc.path? path, v.WellFormed := fun doc hdoc v hv => (hdocs doc hdoc).path? hv
  constructor
  · rintro h ⟨a, ha, b, hb, c, hc, htorn⟩
    exact (sortOrder_trans_iff (hwf a ha) (hwf b hb) (hwf c hc)).1 (h.trans ha hb hc) htorn
  · intro h
    exact {
      eq_swap := sortOrder_swap _ _
      isLE_trans := by
        rintro ⟨a, ha⟩ ⟨b, hb⟩ ⟨c, hc⟩ hab hbc
        rw [Ordering.isLE_iff_ne_gt] at *
        exact (sortOrder_trans_iff (hwf a ha) (hwf b hb) (hwf c hc)).2 (fun htorn => h ⟨a, ha, b, hb, c, hc, htorn⟩)
          hab hbc }

theorem ordersOn_keyOrder_iff (hdocs : ∀ doc ∈ docs, doc.WellFormed) (key : String × Int) :
    OrdersOn (keyOrder key) docs ↔ ¬ TornAt key.1 docs := by
  rw [← ordersOn_path_iff hdocs]
  by_cases hascending : 0 ≤ key.2
  · have hkey : keyOrder key = fun a b => sortOrder (a.path? key.1) (b.path? key.1) := by
      funext a b
      exact if_pos hascending
    rw [hkey]
  · have hkey : keyOrder key = fun a b => (sortOrder (a.path? key.1) (b.path? key.1)).swap := by
      funext a b
      exact if_neg hascending
    rw [hkey]
    refine ⟨fun h => ?_, OrdersOn.swap⟩
    have hback := h.swap
    simp only [Ordering.swap_swap] at hback
    exact hback

theorem ordersOn_order (hdocs : ∀ doc ∈ docs, doc.WellFormed) : ∀ keys : SortKeys,
    (∀ key ∈ keys, ¬ TornAt key.1 docs) → OrdersOn keys.order docs
  | [], _ => { eq_swap := rfl, isLE_trans := fun _ _ => rfl }
  | key :: r, h => by
    obtain ⟨hkey, hr⟩ := List.forall_mem_cons.1 h
    have horder : order (key :: r) = fun a b => (keyOrder key a b).then (order r a b) := by
      funext a b
      exact order_cons key r a b
    rw [horder]
    exact ((ordersOn_keyOrder_iff hdocs key).2 hkey).andThen (ordersOn_order hdocs r hr)

end SortKeys

/-- **Sort keys order documents as long as no identifiers are torn apart.**  The order of values turns round, and is
transitive but where an identifier stands in front of another object and that in front of a lesser identifier.  One
key orders documents just if it finds no such three of them, and several keys do if none of them does. -/
theorem sort_keys_order_iff {a b c : Option Value} (ha : ∀ v ∈ a, v.WellFormed) (hb : ∀ v ∈ b, v.WellFormed)
    (hc : ∀ v ∈ c, v.WellFormed) {docs : List Value} (hdocs : ∀ doc ∈ docs, doc.WellFormed) :
    sortOrder b a = (sortOrder a b).swap ∧
    ((sortOrder a b ≠ .gt → sortOrder b c ≠ .gt → sortOrder a c ≠ .gt) ↔ ¬ Torn a b c) ∧
    (∀ key, OrdersOn (SortKeys.order [key]) docs ↔ ¬ TornAt key.1 docs) ∧
    ∀ keys : SortKeys, (∀ key ∈ keys, ¬ TornAt key.1 docs) → OrdersOn keys.order docs := by
  refine ⟨sortOrder_swap a b, sortOrder_trans_iff ha hb hc, fun key => ?_, SortKeys.ordersOn_order hdocs⟩
  have horder : SortKeys.order [key] = SortKeys.keyOrder key := by
    funext a b
    rw [SortKeys.order_cons]
    exact Ordering.then_eq
  rw [horder]
  exact SortKeys.ordersOn_keyOrder_iff hdocs key

def tagged (digit : Char) : Value :=
  .single "v" (.single "$oid" (.str ("00000000000000000000000".push digit)))

def nested : Value := .single "v" (.single "x" (.int 1))

theorem wellFormed_nested : ∀ doc ∈ [tagged '2', nested], doc.WellFormed := by
  simp only [List.forall_mem_cons]
  exact ⟨.single (.single (.str _)), .single (.single (.int 1)), fun _ hdoc => by cases hdoc⟩

theorem sort_keys_order_iff_nested : (∀ doc ∈ [tagged '2', nested], doc.WellFormed) ∧
    (∀ v ∈ (tagged '2').path? "v", v.WellFormed) ∧ (∀ v ∈ nested.path? "v", v.WellFormed) ∧
    OrdersOn (SortKeys.order [("v", -1)]) [tagged '2', nested] ∧
    (sortOrder ((tagged '2').path? "v") (nested.path? "v") ≠ .gt →
      sortOrder (nested.path? "v") ((tagged '2').path? "v") ≠ .gt →
      sortOrder ((tagged '2').path? "v") ((tagged '2').path? "v") ≠ .gt) := by
  have htagged : ∀ v ∈ (tagged '2').path? "v", v.WellFormed := fun v hv =>
    (wellFormed_nested _ List.mem_cons_self).path? hv
  have hnested : ∀ v ∈ nested.path? "v", v.WellFormed := fun v hv =>
    (wellFormed_nested _ (List.mem_cons_of_mem _ List.mem_cons_self)).path? hv
  -- the one identifier is not before itself
  have hwhole : ¬ TornAt "v" [tagged '2', nested] := by
    rintro ⟨a, ha, b, hb, c, hc, htorn⟩
    have hac := htorn.broken.2.2
    simp only [List.mem_cons, List.not_mem_nil, or_false] at ha hc
    rcases ha with rfl | rfl <;> rcases hc with rfl | rfl <;> cases hac
  obtain ⟨-, htrans, hkey, -⟩ := sort_keys_order_iff htagged hnested htagged wellFormed_nested
  exact ⟨wellFormed_nested, htagged, hnested, (hkey ("v", -1)).2 hwhole, htrans.2 fun htorn =>
    hwhole ⟨_, List.mem_cons_self, _, List.mem_cons_of_mem _ List.mem_cons_self, _, List.mem_cons_self, htorn⟩⟩

/-- **Another object between two identifiers keeps them in the wrong order.** -/
theorem torn_identifiers_keep_their_places :
    sortOrder ((tagged '2').path? "v") (nested.path? "v") = .eq ∧
    sortOrder (nested.path? "v") ((tagged '1').path? "v") = .eq ∧
    sortOrder ((tagged '2').path? "v") ((tagged '1').path? "v") = .gt ∧
    SortKeys.sort [("v", 1)] [tagged '2', nested, tagged '1'] = [tagged '2', nested, tagged '1'] ∧
    SortKeys.sort [("v", 1)] [tagged '2', tagged '1', nested] = [tagged '1', tagged '2', nested] :=
  ⟨rfl, rfl, rfl, rfl, rfl⟩

end DocQuery
