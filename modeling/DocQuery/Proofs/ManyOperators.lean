import DocQuery.Proofs.Paths
import DocQuery.Proofs.SingleCondition

/-!
# Several operators on one field

The operators that several pairs stand for are merged in one object, where a later operator takes the place of an
earlier one under the same key (`Compiled.ofPairs_eq_ok`).  A value passes the merged condition just if it passes what
is left of it, so that the pairs all hold just if nothing was lost that still matters
(`KeyRule.many_hold_iff_each_does`).
-/
namespace DocQuery

namespace Compiled

/-- The operators that an operator adds to others; equality is one of them there. -/
def entries : Compiled → List (String × Value)
  | .equals v => [("$eq", v)]
  | .operators fs => fs
  | .document _ => []

/-- The operators that a pair adds to others; none if it does not compile. -/
def written (r : KeyRule) (stored : String) (p : String × Value) : List (String × Value) :=
  match ofOperator r stored p.1 p.2 with
  | .ok c => c.entries
  | .error _ => []

theorem ofPairs_cons (r : KeyRule) (field stored : String) (p : String × Value) (pairs : List (String × Value))
    (acc : Fields) : ofPairs r field stored (p :: pairs) acc = ofOperator r stored p.1 p.2 >>= fun c =>
      match c with
      | .equals v => ofPairs r field stored pairs (Keyed.set acc "$eq" v)
      | .operators fs => ofPairs r field stored pairs (Keyed.setAll acc fs)
      | .document _ => .error (.query (.uncombinable p.1 field)) := rfl

/-- **Pairs that compile are merged in order.** -/
theorem ofPairs_eq_ok {r : KeyRule} {field stored : String} {pairs : List (String × Value)} {acc fs : Fields}
    (h : ofPairs r field stored pairs acc = .ok fs) :
    (∀ p ∈ pairs, ∃ c, ofOperator r stored p.1 p.2 = .ok c) ∧
      fs = Keyed.setAll acc (pairs.flatMap (written r stored)) := by
  induction pairs generalizing acc with
  | nil =>
    cases h
    exact ⟨fun _ hp => (by cases hp), rfl⟩
  | cons p pairs ih =>
    rw [ofPairs_cons] at h
    obtain ⟨c, hc, h⟩ := bind_eq_ok.1 h
    have hsetAll : ∀ es, Keyed.setAll acc (c.entries ++ es) = Keyed.setAll (Keyed.setAll acc c.entries) es :=
      fun es => List.foldl_append
    rw [List.forall_mem_cons, List.flatMap_cons, written, hc]
    simp only [hsetAll]
    cases c with
    | equals w => exact ⟨⟨⟨_, rfl⟩, (ih h).1⟩, (ih h).2⟩
    | operators es => exact ⟨⟨⟨_, rfl⟩, (ih h).1⟩, (ih h).2⟩
    | document d => cases h

end Compiled

namespace Test

def caseless : Fields := [("$options", .str "i")]

/-- An operator of the store is read as tests which all hold on a value, that may be missing. -/
def Passes (e : String × Value) (x : Option Value) : Prop :=
  ∃ ts, ofEntry caseless e = .ok ts ∧ allHold ts x = true

/-- Operators as conditions write them: none makes an identifier, and every pattern has its options. -/
structure Tidy (es : List (String × Value)) : Prop where
  operator : ∀ e ∈ es, Text.startsWith e.1 "$" = true ∧ e.1 ≠ ObjectId.fieldKey
  option : ∀ e ∈ es, e.1 = "$options" → e.2 = .str "i"
  pattern : ∀ e ∈ es, e.1 = "$regex" → "$options" ∈ Keyed.keys es

theorem allHold_append : ∀ (ts us : List Test) (x : Option Value), allHold (ts ++ us) x = (allHold ts x && allHold us x)
  | [], us, x => by rw [List.nil_append, allHold, Bool.true_and]
  | t :: ts, us, x => by rw [List.cons_append, allHold, allHold, allHold_append ts us x, Bool.and_assoc]

theorem Tidy.flatMap {α : Type} {f : α → List (String × Value)} {as : List α} (h : ∀ a ∈ as, Tidy (f a)) :
    Tidy (as.flatMap f) := by
  refine ⟨fun e he => ?_, fun e he => ?_, fun e he hkey => ?_⟩
  all_goals obtain ⟨a, ha, he⟩ := List.mem_flatMap.1 he
  · exact (h a ha).operator e he
  · exact (h a ha).option e he
  · obtain ⟨o, ho, hokey⟩ := List.mem_map.1 ((h a ha).pattern e he hkey)
    exact List.mem_map.2 ⟨o, List.mem_flatMap.2 ⟨a, ha, ho⟩, hokey⟩

theorem Tidy.ofList {es : List (String × Value)} (h : Tidy es) : Tidy (Keyed.ofList es) := by
  have hmem : ∀ e ∈ Keyed.ofList es, e ∈ es := fun e he => (Keyed.mem_setAll he).resolve_left List.not_mem_nil
  exact ⟨fun e he => h.operator e (hmem e he), fun e he => h.option e (hmem e he),
    fun e he hkey => Keyed.mem_keys_setAll.2 (.inr (h.pattern e (hmem e he) hkey))⟩

theorem ofEntry_tidy {es : Fields} (h : Tidy es) {e : String × Value} (he : e ∈ es) :
    ofEntry es e = ofEntry caseless e := by
  obtain ⟨op, v⟩ := e
  have hsame : ofOperator es op v = ofOperator caseless op v := by
    by_cases hop : op = "$regex"
    · obtain ⟨options, hoptions⟩ := Option.isSome_iff_exists.1 (Keyed.mem_keys.1 (h.pattern _ he hop))
      have hvalue : options = .str "i" := h.option _ (Keyed.mem_of_get? hoptions) rfl
      have hlookup : Keyed.get? es "$options" = Keyed.get? caseless "$options" := by
        rw [hoptions, hvalue]
        rfl
      subst hop
      simp only [ofOperator, patternOperand, hlookup]
    · unfold ofOperator
      split
      all_goals first | rfl | exact absurd rfl hop
  rw [ofEntry, ofEntry, hsame]

theorem ofOperators_tidy {all : Fields} (h : Tidy all) (x : Option Value) : ∀ {es : List (String × Value)},
    (∀ e ∈ es, e ∈ all) → ((∃ ts, ofOperators all es = .ok ts ∧ allHold ts x = true) ↔ ∀ e ∈ es, Passes e x)
  | [], _ => by simp [ofOperators, allHold]
  | e :: es, hes => by
    obtain ⟨he, hes⟩ := List.forall_mem_cons.1 hes
    rw [ofOperators_cons, ofEntry_tidy h he, List.forall_mem_cons, ← ofOperators_tidy h x hes, Passes]
    simp only [bind_eq_ok, map_eq_ok]
    constructor
    · rintro ⟨_, ⟨ts, hts, us, hus, rfl⟩, hhold⟩
      rw [allHold_append, Bool.and_eq_true] at hhold
      exact ⟨⟨ts, hts, hhold.1⟩, us, hus, hhold.2⟩
    · rintro ⟨⟨ts, hts, hfirst⟩, us, hus, hrest⟩
      exact ⟨_, ⟨ts, hts, us, hus, rfl⟩, by rw [allHold_append, hfirst, hrest]; rfl⟩

/-- **An object of operators accepts what passes all of them.** -/
theorem accepts_operators {es : Fields} (hne : es ≠ []) (h : Tidy es) (x : Option Value) :
    Accepts (.obj es) x ↔ ∀ e ∈ es, Passes e x := by
  have hid : Keyed.get? es ObjectId.fieldKey = none := Keyed.get?_eq_none.2 fun e he => (h.operator e he).2
  rw [Accepts, Comparator.test_ofValue_operators (Comparator.operators?_obj hne (fun e he => (h.operator e he).1) hid)]
  exact ofOperators_tidy h x fun e he => he

end Test

namespace Compiled

def comparing : List String :=
  ["$eq", "$ne", "$gt", "$gte", "$lt", "$lte", "$in", "$nin", "$all", "$exists", "$size", "$not"]

/-- A pair by the operator of a comparator, or by one of patterns; equality is not with an object of operators. -/
def IsListed (p : String × Value) : Prop :=
  (∃ rel, Comparator.ofText? p.1 = some rel ∧ (rel = .eq → p.2.operators? = none)) ∨
    Text.lower (Text.trim p.1) ∈ ["like", "regex"]

theorem tidy_of_comparing {es : List (String × Value)} (h : ∀ e ∈ es, e.1 ∈ comparing) : Test.Tidy es := by
  have hkeys : ∀ key ∈ comparing, Text.startsWith key "$" = true ∧ key ≠ ObjectId.fieldKey ∧ key ≠ "$options" ∧
      key ≠ "$regex" := by decide
  exact ⟨fun e he => ⟨(hkeys _ (h e he)).1, (hkeys _ (h e he)).2.1⟩,
    fun e he hkey => absurd hkey (hkeys _ (h e he)).2.2.1, fun e he hkey => absurd hkey (hkeys _ (h e he)).2.2.2⟩

theorem entries_compiled {rel : Comparator} {stored : Value → Value} {op : String} {operand : Value} {c : Compiled}
    (h : rel.compiled stored op operand = .ok c) :
    c.entries ≠ [] ∧ (∀ e ∈ c.entries, e.1 ∈ comparing) ∧
      ∀ v, c = .equals v → rel = .eq ∧ v = stored operand ∨ v = .null := by
  have hkey : ∀ {key : String} {v : Value}, key ∈ comparing → ∀ e ∈ [(key, v)], e.1 ∈ comparing :=
    fun hkey => List.forall_mem_singleton.2 hkey
  cases rel with
  | eq =>
    cases h
    exact ⟨List.cons_ne_nil _ _, hkey (by decide), fun v hv => .inl ⟨rfl, (Compiled.equals.inj hv).symm⟩⟩
  | null =>
    cases h
    exact ⟨List.cons_ne_nil _ _, hkey (by decide), fun v hv => .inr (Compiled.equals.inj hv).symm⟩
  | size =>
    simp only [Comparator.compiled] at h
    split at h
    · cases h
      exact ⟨List.cons_ne_nil _ _, hkey (by decide), fun v hv => (by cases hv)⟩
    · cases h
  | between =>
    obtain ⟨b, -, rfl⟩ := map_eq_ok.1 h
    have hgte : "$gte" ∈ comparing := by decide
    exact ⟨List.cons_ne_nil _ _, List.forall_mem_cons.2 ⟨hgte, hkey (by decide)⟩, fun v hv => (by cases hv)⟩
  | notBetween =>
    obtain ⟨b, -, rfl⟩ := map_eq_ok.1 h
    exact ⟨List.cons_ne_nil _ _, hkey (by decide), fun v hv => (by cases hv)⟩
  | _ =>
    cases h
    exact ⟨List.cons_ne_nil _ _, hkey (by decide), fun v hv => (by cases hv)⟩

theorem ofOperator_pattern {op : String} (h : Text.lower (Text.trim op) ∈ ["like", "regex"]) (r : KeyRule)
    (stored : String) (v : Value) : ofOperator r stored op v = .ok (.operators (("$regex", v) :: Test.caseless)) := by
  unfold ofOperator
  generalize Text.lower (Text.trim op) = lowered at h ⊢
  simp only [List.mem_cons, List.not_mem_nil, or_false] at h
  rcases h with rfl | rfl <;> rfl

/-- **A listed pair says alone what its operators say next to others.** -/
theorem entries_listed {r : KeyRule} {stored : String} {p : String × Value} (h : IsListed p) {c : Compiled}
    (hc : ofOperator r stored p.1 p.2 = .ok c) : c.entries ≠ [] ∧ Test.Tidy c.entries ∧
      ∃ v, Comparator.fieldValue? c = some v ∧ ∀ x, Test.Accepts v x ↔ ∀ e ∈ c.entries, Test.Passes e x := by
  have hfacts : c.entries ≠ [] ∧ Test.Tidy c.entries ∧ ∀ v, c = .equals v → v.operators? = none := by
    rcases h with ⟨rel, hrel, heq⟩ | hpattern
    · rw [Comparator.ofOperator_eq hrel] at hc
      obtain ⟨hne, hkeys, hequals⟩ := entries_compiled hc
      refine ⟨hne, tidy_of_comparing hkeys, fun v hv => ?_⟩
      rcases hequals v hv with ⟨hr, rfl⟩ | rfl
      · exact Comparator.operators?_storedValue r stored (heq hr)
      · rfl
    · rw [ofOperator_pattern hpattern] at hc
      cases hc
      have hregex : Text.startsWith "$regex" "$" = true ∧ "$regex" ≠ ObjectId.fieldKey := by decide
      have hregex' : "$regex" ≠ "$options" := by decide
      refine ⟨List.cons_ne_nil _ _, ⟨?_, ?_, ?_⟩, fun v hv => (by cases hv)⟩
      · exact List.forall_mem_cons.2 ⟨hregex, by decide⟩
      · exact List.forall_mem_cons.2 ⟨fun h => absurd h hregex', List.forall_mem_singleton.2 fun _ => rfl⟩
      · exact fun _ _ _ => List.mem_cons_of_mem _ List.mem_cons_self
  obtain ⟨hne, htidy, hplain⟩ := hfacts
  refine ⟨hne, htidy, ?_⟩
  cases c with
  | equals v =>
    refine ⟨v, rfl, fun x => ?_⟩
    rw [entries, List.forall_mem_singleton, Test.Accepts, Comparator.test_ofValue_plain (hplain v rfl)]
    rfl
  | operators es => exact ⟨_, rfl, Test.accepts_operators hne htidy⟩
  | document d => exact absurd rfl hne

def merged (r : KeyRule) (stored : String) (pairs : List (String × Value)) : Fields :=
  Keyed.ofList (pairs.flatMap (written r stored))

end Compiled

namespace KeyRule

open Compiled (IsListed written merged)
open Test (Passes)

theorem plain_of_readable {stored : String} {fs : Fields} (h : Filter.Readable (.obj [(stored, .obj fs)])) :
    Text.startsWith stored "$" = false := by
  obtain ⟨f, hf⟩ := h
  rw [Filter.ofValue_obj, Filter.ofFields_cons] at hf
  obtain ⟨c, hc, -⟩ := bind_eq_ok.1 hf
  unfold Filter.readField at hc
  split at hc
  · cases hc
  · split at hc
    · cases hc
    · split at hc
      · cases hc
      · rename_i hs
        exact Bool.eq_false_iff.2 hs

/-- A condition with several operators holds where the conditions with each of them do. -/
def AgreesWithEach (r : KeyRule) (l : Logic) (field : String) (pairs : List (String × Value)) (f : Filter) : Prop :=
  ∀ doc, f.holds doc = true ↔ ∀ p ∈ pairs, r.HoldsAlone l field (.single p.1 p.2) doc

section

variable {r : KeyRule} {l : Logic} {field : String} {pairs : List (String × Value)}
  (hbar : Text.hasChar '|' field = false) (hamp : Text.hasChar '&' field = false)

include hbar hamp

theorem holdsAlone_listed (hs : Text.startsWith (r.storedName field) "$" = false) {p : String × Value}
    (hp : IsListed p) {c : Compiled} (hc : Compiled.ofOperator r (r.storedName field) p.1 p.2 = .ok c) (doc : Value) :
    r.HoldsAlone l field (.single p.1 p.2) doc ↔
      ∀ e ∈ written r (r.storedName field) p, Passes e (doc.path? (r.storedName field)) := by
  obtain ⟨-, -, v, hv, haccepts⟩ := Compiled.entries_listed hp hc
  have hitem : r.item field (.single p.1 p.2) = .ok (.obj [(r.storedName field, v)]) := by
    rw [item, hc]
    cases c with
    | document d => cases hv
    | _ =>
      cases hv
      rfl
  rw [holdsAlone_iff hbar hamp l hitem hs, haccepts, written, hc]

theorem item_many {f : Filter} (hf : r.readFilter (alone l field (.many pairs)) = .ok f) :
    (∀ p ∈ pairs, ∃ c, Compiled.ofOperator r (r.storedName field) p.1 p.2 = .ok c) ∧
      Text.startsWith (r.storedName field) "$" = false ∧ ∀ doc, f.holds doc = true ↔
        Test.Accepts (.obj (merged r (r.storedName field) pairs)) (doc.path? (r.storedName field)) := by
  obtain ⟨item, hitem, hread⟩ := bind_eq_ok.1 ((readFilter_alone hbar hamp l _).symm.trans hf)
  obtain ⟨fs, hfs, rfl⟩ := map_eq_ok.1 hitem
  obtain ⟨hcompiled, hmerged⟩ := Compiled.ofPairs_eq_ok hfs
  have hs : Text.startsWith (r.storedName field) "$" = false :=
    plain_of_readable ((map_eq_ok.1 hread).imp fun _ h => h.1)
  refine ⟨hcompiled, hs, fun doc => ?_⟩
  have hiff := holdsAlone_iff hbar hamp l hitem hs doc
  rw [HoldsAlone, hf, hmerged] at hiff
  rw [merged, Keyed.ofList, ← hiff]
  constructor
  · exact fun h => ⟨f, rfl, h⟩
  · rintro ⟨g, hg, h⟩
    rw [Except.ok.inj hg]
    exact h

variable (hlisted : ∀ p ∈ pairs, IsListed p) {f : Filter} (hf : r.readFilter (alone l field (.many pairs)) = .ok f)

include hlisted hf

theorem holdsAlone_written {p : String × Value} (hp : p ∈ pairs) (doc : Value) :
    r.HoldsAlone l field (.single p.1 p.2) doc ↔
      ∀ e ∈ written r (r.storedName field) p, Passes e (doc.path? (r.storedName field)) := by
  obtain ⟨hcompiled, hs, -⟩ := item_many hbar hamp hf
  obtain ⟨c, hc⟩ := hcompiled p hp
  exact holdsAlone_listed hbar hamp hs (hlisted p hp) hc doc

/-- **Together, pairs hold where the operators do that are left of them.** -/
theorem holds_merged (hpairs : pairs ≠ []) (doc : Value) : f.holds doc = true ↔
    ∀ e ∈ merged r (r.storedName field) pairs, Passes e (doc.path? (r.storedName field)) := by
  obtain ⟨hcompiled, -, hholds⟩ := item_many hbar hamp hf
  have hwritten : ∀ p ∈ pairs, written r (r.storedName field) p ≠ [] ∧
      Test.Tidy (written r (r.storedName field) p) := fun p hp => by
    obtain ⟨c, hc⟩ := hcompiled p hp
    obtain ⟨hne, htidy, -⟩ := Compiled.entries_listed (hlisted p hp) hc
    rw [written, hc]
    exact ⟨hne, htidy⟩
  obtain ⟨p, rest, rfl⟩ := List.exists_cons_of_ne_nil hpairs
  have hne : (p :: rest).flatMap (written r (r.storedName field)) ≠ [] := fun h =>
    (hwritten p List.mem_cons_self).1 (List.flatMap_eq_nil_iff.1 h p List.mem_cons_self)
  rw [hholds]
  exact Test.accepts_operators (Keyed.ofList_ne_nil hne) (Test.Tidy.flatMap fun q hq => (hwritten q hq).2).ofList _

omit hlisted in
theorem exists_not_holds (hnil : pairs = []) : ∃ doc, ¬ f.holds doc = true := by
  subst hnil
  obtain ⟨-, -, hholds⟩ := item_many hbar hamp hf
  obtain ⟨doc, hdoc⟩ := Value.exists_path? (r.storedName field) none
  refine ⟨doc, fun h => ?_⟩
  obtain ⟨ts, hts, hmissing⟩ := (hholds doc).1 h
  have heq : ts = [.eq (.obj [])] := Except.ok.inj (hts.symm.trans (Comparator.test_ofValue_plain rfl))
  rw [heq, hdoc] at hmissing
  cases hmissing

theorem agreesWithEach_iff : r.AgreesWithEach l field pairs f ↔ pairs ≠ [] ∧ ∀ x : Option Value,
    (∀ e ∈ merged r (r.storedName field) pairs, Passes e x) →
      ∀ p ∈ pairs, ∀ e ∈ written r (r.storedName field) p, Passes e x := by
  have halone := fun p hp doc => holdsAlone_written (l := l) hbar hamp hlisted hf (p := p) hp doc
  have htogether := holds_merged hbar hamp hlisted hf
  -- what is left was written by some pair
  have hleft : ∀ x, (∀ p ∈ pairs, ∀ e ∈ written r (r.storedName field) p, Passes e x) →
      ∀ e ∈ merged r (r.storedName field) pairs, Passes e x := fun x h e he => by
    obtain ⟨p, hp, he⟩ := List.mem_flatMap.1 ((Keyed.mem_setAll he).resolve_left List.not_mem_nil)
    exact h p hp e he
  constructor
  · intro hagree
    have hpairs : pairs ≠ [] := fun hnil => by
      obtain ⟨doc, hdoc⟩ := exists_not_holds hbar hamp hf hnil
      refine hdoc ((hagree doc).2 fun p hp => ?_)
      rw [hnil] at hp
      cases hp
    refine ⟨hpairs, fun x h p hp => ?_⟩
    obtain ⟨doc, rfl⟩ := Value.exists_path? (r.storedName field) x
    exact (halone p hp doc).1 ((hagree doc).1 ((htogether hpairs doc).2 h) p hp)
  · rintro ⟨hpairs, hall⟩ doc
    rw [htogether hpairs]
    exact ⟨fun h p hp => (halone p hp doc).2 (hall _ h p hp),
      fun h => hleft _ fun p hp => (halone p hp doc).1 (h p hp)⟩

end

/-- **Several operators on a field all hold just if what is left of them says so.**  Alone, a pair holds where its
operators do; together, pairs hold where the operators do that no later one took the place of. -/
theorem many_hold_iff_each_does (r : KeyRule) (l : Logic) {field : String} {pairs : List (String × Value)}
    (hbar : Text.hasChar '|' field = false) (hamp : Text.hasChar '&' field = false)
    (hlisted : ∀ p ∈ pairs, IsListed p) {f : Filter} (hf : r.readFilter (alone l field (.many pairs)) = .ok f) :
    (∀ p ∈ pairs, ∀ doc, r.HoldsAlone l field (.single p.1 p.2) doc ↔
      ∀ e ∈ written r (r.storedName field) p, Passes e (doc.path? (r.storedName field))) ∧
    (pairs ≠ [] → ∀ doc, f.holds doc = true ↔
      ∀ e ∈ merged r (r.storedName field) pairs, Passes e (doc.path? (r.storedName field))) ∧
    (r.AgreesWithEach l field pairs f ↔ pairs ≠ [] ∧ ∀ x : Option Value,
      (∀ e ∈ merged r (r.storedName field) pairs, Passes e x) →
        ∀ p ∈ pairs, ∀ e ∈ written r (r.storedName field) p, Passes e x) ∧
    (pairs ≠ [] → (∀ p ∈ pairs, ∀ e ∈ written r (r.storedName field) p, e ∈ merged r (r.storedName field) pairs) →
      r.AgreesWithEach l field pairs f) := by
  have hagrees := agreesWithEach_iff hbar hamp hlisted hf
  exact ⟨fun p hp => holdsAlone_written hbar hamp hlisted hf hp, holds_merged hbar hamp hlisted hf, hagrees,
    fun hpairs hkept => hagrees.2 ⟨hpairs, fun x h p hp e he => h e (hkept p hp e he)⟩⟩

def adult : List (String × Value) := [(">=", .int 18), ("<", .int 65)]

theorem many_hold_iff_each_does_adult : Text.hasChar '|' "age" = false ∧ Text.hasChar '&' "age" = false ∧
    (∀ p ∈ adult, IsListed p) ∧ ∃ f, readFilter ⟨true, .native⟩ (alone .and "age" (.many adult)) = .ok f ∧
      AgreesWithEach ⟨true, .native⟩ .and "age" adult f := by
  have hlisted : ∀ p ∈ adult, IsListed p := by
    simp only [adult, List.forall_mem_cons]
    exact ⟨.inl ⟨.gte, by decide, fun h => (by cases h)⟩, .inl ⟨.lt, by decide, fun h => (by cases h)⟩,
      fun _ hp => (by cases hp)⟩
  obtain ⟨f, hf⟩ : ∃ f, readFilter ⟨true, .native⟩ (alone .and "age" (.many adult)) = .ok f := ⟨_, rfl⟩
  obtain ⟨-, -, -, hagrees⟩ := many_hold_iff_each_does ⟨true, .native⟩ .and (by decide) (by decide) hlisted hf
  have hmerged : merged ⟨true, .native⟩ "age" adult = [("$gte", .int 18), ("$lt", .int 65)] := rfl
  refine ⟨by decide, by decide, hlisted, f, hf, hagrees (List.cons_ne_nil _ _) ?_⟩
  show ∀ p ∈ adult, ∀ e ∈ written ⟨true, .native⟩ "age" p, e ∈ merged ⟨true, .native⟩ "age" adult
  rw [hmerged]
  simp only [adult, List.forall_mem_cons]
  exact ⟨List.forall_mem_singleton.2 List.mem_cons_self,
    List.forall_mem_singleton.2 (List.mem_cons_of_mem _ List.mem_cons_self), fun _ hp => by cases hp⟩

/-- **Of two operands that a value must differ from, only the later one counts.** -/
theorem later_operand_replaces_earlier :
    ∃ f, readFilter ⟨false, .native⟩ (alone .and "a" (.many [("<>", .int 1), ("<>", .int 2)])) = .ok f ∧
      f.holds (.obj [("a", .int 1)]) = true ∧
      ¬ HoldsAlone ⟨false, .native⟩ .and "a" (.single "<>" (.int 1)) (.obj [("a", .int 1)]) ∧
      ¬ AgreesWithEach ⟨false, .native⟩ .and "a" [("<>", .int 1), ("<>", .int 2)] f := by
  have hboth : readFilter ⟨false, .native⟩ (alone .and "a" (.many [("<>", .int 1), ("<>", .int 2)])) =
      .ok [.junction .and [[.field "a" [.ne (.int 2)]]]] := rfl
  have hone : readFilter ⟨false, .native⟩ (alone .and "a" (.single "<>" (.int 1))) =
      .ok [.junction .and [[.field "a" [.ne (.int 1)]]]] := rfl
  have hdoc : Filter.holds [.junction .and [[.field "a" [.ne (.int 1)]]]] (.obj [("a", .int 1)]) = false := rfl
  have hfirst : ¬ HoldsAlone ⟨false, .native⟩ .and "a" (.single "<>" (.int 1)) (.obj [("a", .int 1)]) := by
    rintro ⟨g, hg, hholds⟩
    rw [← Except.ok.inj (hone.symm.trans hg), hdoc] at hholds
    exact Bool.false_ne_true hholds
  refine ⟨_, hboth, rfl, hfirst, fun h => ?_⟩
  exact hfirst ((h (.obj [("a", .int 1)])).1 rfl ("<>", .int 1) List.mem_cons_self)

end KeyRule

end DocQuery
