import DocQuery.Pipeline.Group
import DocQuery.Proofs.SortOrder

/-!
# Least and greatest values

Only values of one kind are compared, so the first value at a path decides of which kind the least and the greatest one
there are.  Within a kind the order is one of places (`Value.order?_trans`).  What the accumulators give is the first
value on its place, and no value at the path is beyond it (`Accumulator.extremes_first_and_unbeaten`).
-/
namespace DocQuery

namespace Value

variable {a b c : Value} {o o' : Ordering}

theorem order?_self (h : a.order? a = some o) : o = .eq := by
  have hswap := order?_swap a a
  rw [h] at hswap
  cases o with
  | eq => rfl
  | _ => cases hswap

/-- **What is compared with one value is compared with each other.** -/
theorem order?_isSome_trans (ha : a.WellFormed) (hc : c.WellFormed) (hab : a.order? b = some o)
    (hbc : b.order? c = some o') : ∃ o'', a.order? c = some o'' := by
  cases order?_eq_some_iff.1 hab with
  | identifiers hx hy =>
    obtain ⟨s, rfl, -⟩ := ObjectId.eq_single_of_ofValue? hy
    cases order?_eq_some_iff.1 hbc with
    | identifiers _ hz => exact ⟨_, order?_eq_some_iff.2 (.identifiers hx hz)⟩
    | texts hy' _ | truths hy' _ | numbers hy' _ _ => cases hy'
  | texts hx hy =>
    subst hx hy
    cases order?_eq_some_iff.1 hbc with
    | texts _ hz => exact ⟨_, order?_eq_some_iff.2 (.texts rfl hz)⟩
    | identifiers hy' _ | truths hy' _ | numbers hy' _ _ => cases hy'
  | truths hx hy =>
    subst hx hy
    cases order?_eq_some_iff.1 hbc with
    | truths _ hz => exact ⟨_, order?_eq_some_iff.2 (.truths rfl hz)⟩
    | identifiers hy' _ | texts hy' _ | numbers hy' _ _ => cases hy'
  | numbers hx hy h =>
    cases order?_eq_some_iff.1 hbc with
    | numbers _ hz _ =>
      exact ⟨_, order?_eq_some_iff.2 (.numbers hx hz (orderFloats?_eq (ha.isNumber hx) (hc.isNumber hz)))⟩
    | identifiers hy' _ =>
      obtain ⟨s, rfl, -⟩ := ObjectId.eq_single_of_ofValue? hy'
      cases hy
    | texts hy' _ | truths hy' _ =>
      subst hy'
      cases hy

theorem order?_trans (ha : a.WellFormed) (hb : b.WellFormed) (hc : c.WellFormed) (hab : a.order? b = some o)
    (ho : o ≠ .gt) (hbc : b.order? c = some o') (ho' : o' ≠ .gt) : ∃ o'', a.order? c = some o'' ∧ o'' ≠ .gt := by
  obtain ⟨o'', hac⟩ := order?_isSome_trans ha hc hab hbc
  rw [← sortOrder_some_of_order? hab] at ho
  rw [← sortOrder_some_of_order? hbc] at ho'
  refine ⟨o'', hac, ?_⟩
  rcases sortOrder_trans_or_torn ha hb hc ho ho' with h | ⟨-, hobject, hother, -, -⟩
  · rwa [sortOrder_some_of_order? hac] at h
  · rw [order?_object_none hobject hother] at hab
    cases hab

/-- **If one of two steps goes ahead and neither goes back, both together go ahead.** -/
theorem order?_lt_trans (ha : a.WellFormed) (hb : b.WellFormed) (hc : c.WellFormed) (hab : a.order? b = some o)
    (ho : o ≠ .gt) (hbc : b.order? c = some o') (ho' : o' ≠ .gt) (hlt : o = .lt ∨ o' = .lt) :
    a.order? c = some .lt := by
  obtain ⟨o'', hac, hne⟩ := order?_trans ha hb hc hab ho hbc ho'
  cases o'' with
  | lt => exact hac
  | gt => exact absurd rfl hne
  | eq =>
    -- back on the first place, the step that went ahead would be undone by the other
    have hca : c.order? a = some .eq := by
      rw [order?_swap a c, hac]
      rfl
    rcases hlt with rfl | rfl
    · obtain ⟨p, hp, hback⟩ := order?_trans hb hc ha hbc ho' hca nofun
      rw [order?_swap a b, hab] at hp
      exact absurd (Option.some.inj hp).symm hback
    · obtain ⟨p, hp, hback⟩ := order?_trans hc ha hb hca nofun hab ho
      rw [order?_swap b c, hbc] at hp
      exact absurd (Option.some.inj hp).symm hback

/-- **What is beyond a value, or on its place, is beyond all that the value is beyond.** -/
theorem order?_beyond {wanted : Ordering} (hw : wanted ≠ .eq) (ha : a.WellFormed) (hb : b.WellFormed)
    (hc : c.WellFormed) (hab : a.order? b = some o) (ho : o = .eq ∨ o = wanted) (hbc : b.order? c = some wanted) :
    a.order? c = some wanted := by
  cases wanted with
  | eq => exact absurd rfl hw
  | lt =>
    refine order?_lt_trans ha hb hc hab ?_ hbc nofun (.inr rfl)
    rcases ho with rfl | rfl <;> rintro ⟨⟩
  | gt =>
    have hcb : c.order? b = some .lt := by
      rw [order?_swap b c, hbc]
      rfl
    have hba : b.order? a = some o.swap := by
      rw [order?_swap a b, hab]
      rfl
    have hca : c.order? a = some .lt := by
      refine order?_lt_trans hc hb ha hcb nofun hba ?_ (.inl rfl)
      rcases ho with rfl | rfl <;> rintro ⟨⟩
    rw [order?_swap c a, hca]
    rfl

end Value

namespace Accumulator

/-- A value is the extreme one of some values: the first on its place, with none beyond it, and of the kind of the value
that comes first of all. -/
structure IsExtreme (wanted : Ordering) (vs : List Value) (r : Value) : Prop where
  first : ∃ before after, vs = before ++ r :: after ∧ ∀ v ∈ before, v.order? r ≠ some .eq
  unbeaten : ∀ v ∈ vs, v.order? r ≠ some wanted
  kind : ∀ v ∈ vs.head?, r = v ∨ ∃ o, r.order? v = some o

section

variable {wanted : Ordering}

theorem isExtreme_singleton (hw : wanted ≠ .eq) (v : Value) : IsExtreme wanted [v] v where
  first := ⟨[], [], rfl, nofun⟩
  unbeaten u hu h := by
    obtain rfl := List.mem_singleton.1 hu
    exact hw (Value.order?_self h)
  kind _ hu := .inl (Option.some.inj hu)

/-- **The extreme value stays, or the next takes its place if it is beyond it.** -/
theorem IsExtreme.append (hw : wanted ≠ .eq) {vs : List Value} {r v : Value} (h : IsExtreme wanted vs r)
    (hvs : ∀ u ∈ vs, u.WellFormed) (hv : v.WellFormed) :
    IsExtreme wanted (vs ++ [v]) (if v.order? r = some wanted then v else r) := by
  obtain ⟨⟨before, after, hsplit, hbefore⟩, hunbeaten, hkind⟩ := h
  have hr : r.WellFormed := hvs r (by simp [hsplit])
  have hhead : (vs ++ [v]).head? = vs.head? := by
    rw [hsplit]
    cases before <;> rfl
  split
  · rename_i hbeats
    -- what is on the new place or beyond it is beyond the old one
    have hbehind : ∀ u ∈ vs, ∀ o, u.order? v = some o → ¬ (o = .eq ∨ o = wanted) := fun u hu o huv ho =>
      hunbeaten u hu (Value.order?_beyond hw (hvs u hu) hv hr huv ho hbeats)
    refine ⟨⟨vs, [], rfl, fun u hu huv => hbehind u hu _ huv (.inl rfl)⟩, fun u hu huv => ?_, fun u hu => ?_⟩
    · rcases List.mem_append.1 hu with hu | hu
      · exact hbehind u hu _ huv (.inr rfl)
      · obtain rfl := List.mem_singleton.1 hu
        exact hw (Value.order?_self huv)
    · rw [hhead] at hu
      rcases hkind u hu with rfl | ⟨o, ho⟩
      · exact .inr ⟨_, hbeats⟩
      · exact .inr (Value.order?_isSome_trans hv (hvs u (List.mem_of_mem_head? hu)) hbeats ho)
  · rename_i hno
    refine ⟨⟨before, after ++ [v], by simp [hsplit], hbefore⟩, fun u hu huv => ?_, by rwa [hhead]⟩
    rcases List.mem_append.1 hu with hu | hu
    · exact hunbeaten u hu huv
    · obtain rfl := List.mem_singleton.1 hu
      exact hno huv

theorem extreme_some (hw : wanted ≠ .eq) : ∀ {rest vs : List Value} {best : Value}, IsExtreme wanted vs best →
    (∀ v ∈ vs ++ rest, v.WellFormed) → ∃ r, extreme wanted (some best) rest = some r ∧ IsExtreme wanted (vs ++ rest) r
  | [], vs, best, h, _ => ⟨best, rfl, by rwa [List.append_nil]⟩
  | v :: rest, vs, best, h, hwf => by
    have hnext := h.append hw (v := v) (fun u hu => hwf u (List.mem_append_left _ hu)) (hwf v (by simp))
    have hsplit : vs ++ v :: rest = (vs ++ [v]) ++ rest := by simp
    rw [hsplit] at hwf ⊢
    exact extreme_some hw hnext hwf

/-- **Of some values there is an extreme one, and it is found.** -/
theorem isExtreme_extreme (hw : wanted ≠ .eq) {vs : List Value} (hvs : ∀ v ∈ vs, v.WellFormed) (hne : vs ≠ []) :
    ∃ r, extreme wanted none vs = some r ∧ IsExtreme wanted vs r := by
  obtain ⟨v, rest, rfl⟩ := List.exists_cons_of_ne_nil hne
  exact extreme_some hw (isExtreme_singleton hw v) hvs

theorem mem_present {path : String} {docs : List Value} {v : Value} :
    v ∈ present path docs ↔ v ≠ .null ∧ ∃ doc ∈ docs, doc.path? path = some v := by
  rw [present, List.mem_filter, List.mem_filterMap, and_comm]
  refine and_congr_left fun _ => ?_
  cases v <;> simp [Value.isNull]

theorem present_eq_nil {path : String} {docs : List Value} :
    present path docs = [] ↔ ∀ doc ∈ docs, ∀ v, doc.path? path = some v → v = .null := by
  rw [List.eq_nil_iff_forall_not_mem]
  constructor
  · intro h doc hdoc v hv
    by_contra hne
    exact h v (mem_present.2 ⟨hne, doc, hdoc, hv⟩)
  · intro h v hv
    obtain ⟨hne, doc, hdoc, hread⟩ := mem_present.1 hv
    exact hne (h doc hdoc v hread)

/-- An accumulator gives `null` where documents have nothing else at a path, and elsewhere the extreme value there. -/
def FindsExtreme (wanted : Ordering) (path : String) (docs : List Value) (r : Value) : Prop :=
  (r = .null ↔ ∀ doc ∈ docs, ∀ v, doc.path? path = some v → v = .null) ∧
  (r ≠ .null → IsExtreme wanted (present path docs) r)

theorem findsExtreme_extreme (hw : wanted ≠ .eq) {docs : List Value} (hdocs : ∀ doc ∈ docs, doc.WellFormed)
    (path : String) : FindsExtreme wanted path docs (Value.orNull (extreme wanted none (present path docs))) := by
  have hwf : ∀ v ∈ present path docs, v.WellFormed := fun v hv => by
    obtain ⟨-, doc, hdoc, hread⟩ := mem_present.1 hv
    exact (hdocs doc hdoc).path? hread
  rw [FindsExtreme, ← present_eq_nil]
  by_cases hnil : present path docs = []
  · rw [hnil]
    exact ⟨iff_of_true rfl rfl, fun hne => absurd rfl hne⟩
  · obtain ⟨r, hr, hextreme⟩ := isExtreme_extreme hw hwf hnil
    obtain ⟨before, after, hsplit, -⟩ := hextreme.first
    have hmem : r ∈ present path docs := by simp [hsplit]
    rw [hr]
    exact ⟨iff_of_false (mem_present.1 hmem).1 hnil, fun _ => hextreme⟩

end

/-- **The greatest and the least value are really that.**  They are `null` just if no document has anything else at the
path.  Otherwise they are the first of the values there on their place, no value there is beyond them, and they are of
the kind of the first value. -/
theorem extremes_first_and_unbeaten {docs : List Value} (hdocs : ∀ doc ∈ docs, doc.WellFormed) (path : String) :
    FindsExtreme .gt path docs ((max path).compute docs) ∧ FindsExtreme .lt path docs ((min path).compute docs) :=
  ⟨findsExtreme_extreme (by decide) hdocs path, findsExtreme_extreme (by decide) hdocs path⟩

def valued (v : Value) : Value := .single "v" v

def mixed : List Value := [valued .null, valued (.int 2), valued (.str "z"), valued (.float 3), valued (.int 3)]

theorem extremes_first_and_unbeaten_mixed : (∀ doc ∈ mixed, doc.WellFormed) ∧
    (max "v").compute mixed = .float 3 ∧ (min "v").compute mixed = .int 2 ∧
    IsExtreme .gt [.int 2, .str "z", .float 3, .int 3] (.float 3) ∧
    IsExtreme .lt [.int 2, .str "z", .float 3, .int 3] (.int 2) := by
  have hwf : ∀ doc ∈ mixed, doc.WellFormed := by
    simp only [mixed, List.forall_mem_cons]
    exact ⟨.single .null, .single (.int 2), .single (.str "z"), .single (.float rfl), .single (.int 3), nofun⟩
  have hmax : (max "v").compute mixed = .float 3 := rfl
  have hmin : (min "v").compute mixed = .int 2 := rfl
  obtain ⟨⟨-, hgreatest⟩, -, hleast⟩ := extremes_first_and_unbeaten hwf "v"
  rw [hmax] at hgreatest
  rw [hmin] at hleast
  exact ⟨hwf, hmax, hmin, hgreatest nofun, hleast nofun⟩

end Accumulator

end DocQuery
