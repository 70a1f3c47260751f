import DocQuery.Compile.Filter
import DocQuery.Filter.Reader
import DocQuery.Proofs.Keyed
import DocQuery.Proofs.Run

/-!
# What a compiled filter document means

`KeyRule.collect` files items in one array for each combinator, and `Filter.ofValue` reads those arrays back.  The
document of some items can be read just if every item can (`readable_collected`), and it holds on a document just if
every combinator admits what the items filed under it answer (`holds_collected`).
-/
namespace DocQuery

namespace Filter

def Readable (v : Value) : Prop := ∃ f, ofValue v = .ok f

/-- Whether a filter document can be read and holds on a document. -/
def meaning (v doc : Value) : Bool :=
  match ofValue v with
  | .ok f => holds f doc
  | .error _ => false

theorem meaning_of_ofValue {v : Value} {f : Filter} (h : ofValue v = .ok f) (doc : Value) :
    meaning v doc = holds f doc := by
  unfold meaning
  rw [h]

theorem holds_cons (c : Clause) (f : Filter) (doc : Value) :
    holds (c :: f) doc = (clauseHolds doc c && holds f doc) := by
  unfold holds
  rw [allHold]

theorem holds_nil (doc : Value) : holds [] doc = true := by
  unfold holds
  rw [allHold]

end Filter

namespace Junction

def key : Junction → String
  | and => "$and"
  | or => "$or"
  | nor => "$nor"
  | xor => "$xor"

@[simp] theorem ofKey?_key (j : Junction) : ofKey? j.key = some j := by
  cases j <;> rfl

/-- Whether a combinator is content with the answers of its branches; without branches it always is. -/
def Admits : Junction → List Bool → Prop
  | and, bs => ∀ b ∈ bs, b = true
  | or, bs => bs = [] ∨ true ∈ bs
  | nor, bs => true ∉ bs
  | xor, bs => bs = [] ∨ bs.count true = 1

theorem admits_nil (j : Junction) : j.Admits [] := by
  cases j <;> simp [Admits]

theorem forall_iff {p : Junction → Prop} : (∀ j, p j) ↔ p and ∧ p or ∧ p xor ∧ p nor :=
  ⟨fun h => ⟨h and, h or, h xor, h nor⟩, fun ⟨ha, ho, hx, hn⟩ j => by cases j <;> assumption⟩

theorem admits_and {α : Type} (g : α → Bool) (as : List α) : Admits and (as.map g) ↔ ∀ a ∈ as, g a = true := by
  simp [Admits]

theorem admits_or {α : Type} (g : α → Bool) (as : List α) :
    Admits or (as.map g) ↔ as = [] ∨ ∃ a ∈ as, g a = true := by
  simp [Admits]

theorem admits_xor {α : Type} (g : α → Bool) (as : List α) : Admits xor (as.map g) ↔ as = [] ∨ as.countP g = 1 := by
  simp [Admits, List.count, List.countP_map, Function.comp_def]

end Junction

namespace Filter

/-! ## Reading -/

def readField (key : String) (v : Value) : Except Fault Clause :=
  match Junction.ofKey? key with
  | some j =>
    match v with
    | .arr branches => (ofBranches branches).map (Clause.junction j)
    | _ => .error (.query (.arrayNeeded key))
  | none =>
    if key = "$where" then .error (.query .script)
    else if Text.startsWith key "$" then .error (.query (.logicalOperator key))
    else (Test.ofValue v).map (Clause.field key)

theorem ofFields_cons (key : String) (v : Value) (r : List (String × Value)) :
    ofFields ((key, v) :: r) = readField key v >>= fun c => (ofFields r).map (c :: ·) := by
  rw [ofFields]
  unfold readField
  cases Junction.ofKey? key with
  | none =>
    simp only
    split
    · rfl
    · split
      · rfl
      · cases Test.ofValue v <;> rfl
  | some j =>
    cases v with
    | arr branches => simp only; cases ofBranches branches <;> rfl
    | _ => rfl

theorem ofBranches_cons (v : Value) (r : List Value) :
    ofBranches (v :: r) = ofValue v >>= fun f => (ofBranches r).map (f :: ·) := by
  rw [ofBranches]
  rfl

theorem ofBranches_eq_ok (doc : Value) : ∀ (vs : List Value) (bs : List (List Clause)), ofBranches vs = .ok bs →
    (∀ v ∈ vs, Readable v) ∧ bs.length = vs.length ∧ countHolding doc bs = (vs.map (meaning · doc)).count true
  | [], bs, h => by
    rw [ofBranches] at h
    cases h
    simp [countHolding]
  | v :: vs, bs, h => by
    rw [ofBranches_cons, bind_eq_ok] at h
    obtain ⟨f, hf, h⟩ := h
    obtain ⟨bs, hbs, rfl⟩ := map_eq_ok.1 h
    obtain ⟨hr, hl, hc⟩ := ofBranches_eq_ok doc vs bs hbs
    refine ⟨List.forall_mem_cons.2 ⟨⟨f, hf⟩, hr⟩, by simp [hl], ?_⟩
    rw [countHolding, hc, List.map_cons, List.count_cons, meaning_of_ofValue hf]
    unfold holds
    cases allHold doc f
    · simp
    · simp [Nat.add_comm]

theorem ofBranches_of_readable : ∀ vs : List Value, (∀ v ∈ vs, Readable v) → ∃ bs, ofBranches vs = .ok bs
  | [], _ => ⟨[], by rw [ofBranches]⟩
  | v :: vs, h => by
    obtain ⟨⟨f, hf⟩, hr⟩ := List.forall_mem_cons.1 h
    obtain ⟨bs, hbs⟩ := ofBranches_of_readable vs hr
    exact ⟨f :: bs, by rw [ofBranches_cons, hf, hbs]; rfl⟩

theorem clauseHolds_junction (doc : Value) (j : Junction) {vs : List Value} {bs : List (List Clause)} (hne : vs ≠ [])
    (h : ofBranches vs = .ok bs) :
    clauseHolds doc (.junction j bs) = true ↔ j.Admits (vs.map (meaning · doc)) := by
  obtain ⟨-, hl, hc⟩ := ofBranches_eq_ok doc vs bs h
  have hne : vs.map (meaning · doc) ≠ [] := by simpa using hne
  have hl : bs.length = (vs.map (meaning · doc)).length := by simpa using hl
  generalize vs.map (meaning · doc) = answers at hc hne hl
  cases j with
  | and => simp [clauseHolds, Junction.Admits, hl, hc, List.count_eq_length]
  | or => simp [clauseHolds, Junction.Admits, hc, hne, List.count_eq_zero]
  | nor => simp [clauseHolds, Junction.Admits, hc, List.count_eq_zero]
  | xor => simp [clauseHolds, Junction.Admits, hc, hne]

theorem ofFields_eq_ok (doc : Value) : ∀ (fs : List (String × Value)) (f : Filter), ofFields fs = .ok f →
    (holds f doc = true ↔ ∀ e ∈ fs, ∃ c, readField e.1 e.2 = .ok c ∧ clauseHolds doc c = true)
  | [], f, h => by
    rw [ofFields] at h
    cases h
    simp [holds_nil]
  | (key, v) :: r, f, h => by
    rw [ofFields_cons, bind_eq_ok] at h
    obtain ⟨c, hc, h⟩ := h
    obtain ⟨f, hf, rfl⟩ := map_eq_ok.1 h
    rw [holds_cons, Bool.and_eq_true, ofFields_eq_ok doc r f hf, List.forall_mem_cons]
    have hone : clauseHolds doc c = true ↔ ∃ c', readField key v = .ok c' ∧ clauseHolds doc c' = true := by
      simp [hc]
    rw [hone]

theorem ofFields_of_readField : ∀ fs : List (String × Value), (∀ e ∈ fs, ∃ c, readField e.1 e.2 = .ok c) →
    ∃ f, ofFields fs = .ok f
  | [], _ => ⟨[], by rw [ofFields]⟩
  | (key, v) :: r, h => by
    obtain ⟨⟨c, hc⟩, hr⟩ := List.forall_mem_cons.1 h
    obtain ⟨f, hf⟩ := ofFields_of_readField r hr
    exact ⟨c :: f, by rw [ofFields_cons, hc, hf]; rfl⟩

theorem readField_of_ofFields : ∀ {fs : List (String × Value)} {f : Filter}, ofFields fs = .ok f →
    ∀ e ∈ fs, ∃ c, readField e.1 e.2 = .ok c
  | [], _, _, e, he => by cases he
  | (key, v) :: r, f, h, e, he => by
    rw [ofFields_cons, bind_eq_ok] at h
    obtain ⟨c, hc, h⟩ := h
    obtain ⟨f, hf, -⟩ := map_eq_ok.1 h
    rcases List.mem_cons.1 he with rfl | he
    · exact ⟨c, hc⟩
    · exact readField_of_ofFields hf e he

theorem readField_key (j : Junction) (vs : List Value) :
    readField j.key (.arr vs) = (ofBranches vs).map (Clause.junction j) := by
  unfold readField
  rw [Junction.ofKey?_key]

theorem ofValue_obj (fs : Fields) : ofValue (.obj fs) = ofFields fs := by
  rw [ofValue]

end Filter

namespace KeyRule

/-! ## Collecting -/

def filed (key : String) (items : Contribution) : List Value := (items.filter (·.1 = key)).map Prod.snd

def arrayOf : List Value → Option Value
  | [] => none
  | vs => some (.arr vs)

theorem filed_append (key : String) (as bs : Contribution) : filed key (as ++ bs) = filed key as ++ filed key bs := by
  simp [filed]

theorem mem_filed {key : String} {items : Contribution} {v : Value} : v ∈ filed key items ↔ (key, v) ∈ items := by
  simp [filed]

theorem arrayOf_eq_some {vs : List Value} {v : Value} : arrayOf vs = some v ↔ vs ≠ [] ∧ v = .arr vs := by
  cases vs with
  | nil => simp [arrayOf]
  | cons x xs => simp [arrayOf, eq_comm]

theorem get?_push {fs : Fields} {before : Contribution} (h : ∀ key, Keyed.get? fs key = arrayOf (filed key before))
    (item : String × Value) (key : String) :
    Keyed.get? (push fs item) key = arrayOf (filed key (before ++ [item])) := by
  have hpush : push fs item = Keyed.set fs item.1 (.arr (filed item.1 before ++ [item.2])) := by
    unfold push
    rw [h item.1]
    cases filed item.1 before with
    | nil => rfl
    | cons x xs => rfl
  rw [hpush, Keyed.get?_set, filed_append]
  by_cases hk : item.1 = key
  · subst hk
    simp only [if_true]
    refine (arrayOf_eq_some.2 ⟨by simp [filed], ?_⟩).symm
    simp [filed]
  · simp [hk, h key, filed]

theorem get?_foldl_push : ∀ (items : Contribution) {fs : Fields} {before : Contribution},
    (∀ key, Keyed.get? fs key = arrayOf (filed key before)) →
      ∀ key, Keyed.get? (items.foldl push fs) key = arrayOf (filed key (before ++ items))
  | [], fs, before, h, key => by
    rw [List.append_nil]
    exact h key
  | item :: items, fs, before, h, key => by
    rw [List.foldl_cons, get?_foldl_push items (get?_push h item) key, List.append_assoc]
    rfl

theorem get?_collected (items : Contribution) (key : String) :
    Keyed.get? (items.foldl push []) key = arrayOf (filed key items) := by
  have hnil : ∀ key, Keyed.get? ([] : Fields) key = arrayOf (filed key []) := fun _ => rfl
  exact get?_foldl_push items hnil key

theorem nodup_keys_push {fs : Fields} (hn : (Keyed.keys fs).Nodup) (item : String × Value) :
    (Keyed.keys (push fs item)).Nodup := by
  unfold push
  split
  · exact Keyed.nodup_keys_set hn _ _
  · exact Keyed.nodup_keys_set hn _ _
  · exact hn

theorem nodup_keys_foldl_push : ∀ (items : Contribution) {fs : Fields}, (Keyed.keys fs).Nodup →
    (Keyed.keys (items.foldl push fs)).Nodup
  | [], _, hn => hn
  | item :: items, _, hn => nodup_keys_foldl_push items (nodup_keys_push hn item)

/-- **The document of some items has one array for each key that occurs, with the items under it.** -/
theorem mem_collected (items : Contribution) (e : String × Value) :
    e ∈ items.foldl push [] ↔ filed e.1 items ≠ [] ∧ e.2 = .arr (filed e.1 items) := by
  have hn : (Keyed.keys ([] : Fields)).Nodup := List.nodup_nil
  rw [← arrayOf_eq_some, ← get?_collected]
  exact Keyed.mem_iff_get? (nodup_keys_foldl_push items hn)

/-- **The document of some items can be read just if every item can.** -/
theorem readable_collected {items : Contribution} (hkey : ∀ e ∈ items, ∃ j : Junction, e.1 = j.key) :
    Filter.Readable (.obj (items.foldl push [])) ↔ ∀ e ∈ items, Filter.Readable e.2 := by
  unfold Filter.Readable
  rw [Filter.ofValue_obj]
  constructor
  · rintro ⟨f, hf⟩ ⟨key, v⟩ he
    obtain ⟨j, rfl⟩ := hkey _ he
    have hv : v ∈ filed j.key items := mem_filed.2 he
    obtain ⟨c, hc⟩ := Filter.readField_of_ofFields hf (j.key, .arr (filed j.key items))
      ((mem_collected items _).2 ⟨List.ne_nil_of_mem hv, rfl⟩)
    rw [Filter.readField_key] at hc
    obtain ⟨bs, hbs, -⟩ := map_eq_ok.1 hc
    exact (Filter.ofBranches_eq_ok .null _ bs hbs).1 v hv
  · intro h
    refine Filter.ofFields_of_readField _ fun e he => ?_
    obtain ⟨hne, hv⟩ := (mem_collected items e).1 he
    obtain ⟨v, hmem⟩ := List.exists_mem_of_ne_nil _ hne
    obtain ⟨j, hj⟩ := hkey _ (mem_filed.1 hmem)
    obtain ⟨bs, hbs⟩ := Filter.ofBranches_of_readable (filed e.1 items) fun w hw => h _ (mem_filed.1 hw)
    refine ⟨.junction j bs, ?_⟩
    rw [hv, show e.1 = j.key from hj, Filter.readField_key, ← show e.1 = j.key from hj, hbs]
    rfl

/-- **The document of some items holds just if every combinator admits what the items under its key answer.** -/
theorem holds_collected {items : Contribution} (hkey : ∀ e ∈ items, ∃ j : Junction, e.1 = j.key) {f : Filter}
    (hf : Filter.ofValue (.obj (items.foldl push [])) = .ok f) (doc : Value) :
    Filter.holds f doc = true ↔ ∀ j : Junction, j.Admits ((filed j.key items).map (Filter.meaning · doc)) := by
  rw [Filter.ofValue_obj] at hf
  rw [Filter.ofFields_eq_ok doc _ f hf]
  constructor
  · intro h j
    by_cases hne : filed j.key items = []
    · rw [hne]
      exact Junction.admits_nil j
    · obtain ⟨c, hc, hholds⟩ := h (j.key, .arr (filed j.key items)) ((mem_collected items _).2 ⟨hne, rfl⟩)
      rw [Filter.readField_key] at hc
      obtain ⟨bs, hbs, rfl⟩ := map_eq_ok.1 hc
      exact (Filter.clauseHolds_junction doc j hne hbs).1 hholds
  · intro h e he
    obtain ⟨c, hc⟩ := Filter.readField_of_ofFields hf e he
    refine ⟨c, hc, ?_⟩
    obtain ⟨hne, hv⟩ := (mem_collected items e).1 he
    obtain ⟨v, hmem⟩ := List.exists_mem_of_ne_nil _ hne
    obtain ⟨j, hj⟩ := hkey _ (mem_filed.1 hmem)
    have hj : e.1 = j.key := hj
    rw [hv, hj, Filter.readField_key] at hc
    obtain ⟨bs, hbs, rfl⟩ := map_eq_ok.1 hc
    rw [hj] at hne
    exact (Filter.clauseHolds_junction doc j hne hbs).2 (h j)

end KeyRule

end DocQuery
