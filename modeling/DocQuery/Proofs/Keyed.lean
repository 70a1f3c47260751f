import DocQuery.Keyed

/-!
# Keyed lists as maps

In a list that holds each key once, having an entry is finding its value (`mem_iff_get?`), and `Keyed.set` keeps it so.
`Keyed.set_split` tells where the entry goes.  Both removals take out one key and leave the values of all others
(`get?_erase`, `get?_swapErase`).  Setting entries and changing values by their keys commute (`mapValues_set`).
-/
namespace DocQuery.Keyed

variable {κ α : Type} [DecidableEq κ]

theorem get?_cons (k key : κ) (v : α) (m : Keyed κ α) :
    get? ((k, v) :: m) key = if k = key then some v else get? m key := rfl

theorem get?_eq_none : ∀ {m : Keyed κ α} {key : κ}, get? m key = none ↔ ∀ e ∈ m, e.1 ≠ key
  | [], key => by simp
  | (k, v) :: m, key => by
    rw [get?_cons, List.forall_mem_cons]
    by_cases h : k = key
    · simp [h]
    · simp only [h, if_false, ne_eq, not_false_eq_true, true_and]
      exact get?_eq_none

theorem mem_of_get? : ∀ {m : Keyed κ α} {key : κ} {v : α}, get? m key = some v → (key, v) ∈ m
  | (k, w) :: m, key, v, h => by
    rw [get?_cons] at h
    by_cases hk : k = key
    · simp only [hk, if_true, Option.some.injEq] at h
      rw [hk, h]
      exact List.mem_cons_self
    · simp only [hk, if_false] at h
      exact List.mem_cons_of_mem _ (mem_of_get? h)

theorem mem_iff_get? : ∀ {m : Keyed κ α}, (keys m).Nodup → ∀ {key : κ} {v : α}, (key, v) ∈ m ↔ get? m key = some v
  | [], _, key, v => by simp
  | (k, w) :: m, hn, key, v => by
    obtain ⟨hk, hn⟩ := List.nodup_cons.1 hn
    rw [get?_cons]
    by_cases h : k = key
    · subst h
      have hm : (k, v) ∉ m := fun hm => hk (List.mem_map.2 ⟨(k, v), hm, rfl⟩)
      simp [hm, eq_comm]
    · have h' : key ≠ k := fun e => h e.symm
      simp only [List.mem_cons, Prod.mk.injEq, h', false_and, false_or, h, if_false]
      exact mem_iff_get? hn

theorem mem_keys {m : Keyed κ α} {key : κ} : key ∈ keys m ↔ (get? m key).isSome = true := by
  induction m with
  | nil => simp [keys]
  | cons e m ih =>
    obtain ⟨k, v⟩ := e
    rw [get?_cons, keys, List.map_cons, List.mem_cons]
    by_cases h : k = key
    · simp [h]
    · rw [if_neg h, ← ih, keys, or_iff_right fun heq => h heq.symm]

theorem keys_set (m : Keyed κ α) (key : κ) (v : α) :
    keys (set m key v) = if (get? m key).isSome then keys m else keys m ++ [key] := by
  induction m with
  | nil => simp [set, keys]
  | cons e m ih =>
    obtain ⟨k, w⟩ := e
    by_cases h : k = key
    · simp [set, get?_cons, keys, h]
    · simp only [keys] at ih
      simp only [set, get?_cons, h, if_false, keys, List.map_cons, ih]
      split
      · rfl
      · rfl

theorem nodup_keys_set {m : Keyed κ α} (hn : (keys m).Nodup) (key : κ) (v : α) : (keys (set m key v)).Nodup := by
  rw [keys_set]
  cases h : get? m key with
  | some w => simpa using hn
  | none =>
    have hk : key ∉ keys m := fun hk => by
      obtain ⟨e, he, rfl⟩ := List.mem_map.1 hk
      exact get?_eq_none.1 h e he rfl
    simp only [Option.isSome_none, Bool.false_eq_true, if_false]
    exact List.nodup_append.2 ⟨hn, by simp, fun a ha b hb => by
      rw [List.mem_singleton.1 hb]
      exact fun e => hk (e ▸ ha)⟩

theorem set_set : ∀ (m : Keyed κ α) (key : κ) (v w : α), set (set m key v) key w = set m key w
  | [], key, v, w => by simp [set]
  | (k, u) :: m, key, v, w => by
    by_cases hk : k = key
    · simp [set, hk]
    · simp only [set, hk, if_false]
      rw [set_set m key v w]

theorem set_of_get?_none : ∀ {m : Keyed κ α} {key : κ}, get? m key = none → ∀ v, set m key v = m ++ [(key, v)]
  | [], _, _, _ => rfl
  | (k, w) :: m, key, h, v => by
    rw [get?_cons] at h
    by_cases hk : k = key
    · simp [hk] at h
    · simp only [hk, if_false] at h
      simp only [set, hk, if_false, List.cons_append]
      rw [set_of_get?_none h v]

theorem mem_set : ∀ {m : Keyed κ α} {key : κ} {v : α} {e : κ × α}, e ∈ set m key v → e = (key, v) ∨ e ∈ m
  | [], _, _, _, he => .inl (List.mem_singleton.1 he)
  | (k, w) :: m, key, v, e, he => by
    rw [set] at he
    by_cases hk : k = key
    · rw [if_pos hk] at he
      rcases List.mem_cons.1 he with rfl | he
      · exact .inl (by rw [hk])
      · exact .inr (List.mem_cons_of_mem _ he)
    · rw [if_neg hk] at he
      rcases List.mem_cons.1 he with rfl | he
      · exact .inr List.mem_cons_self
      · exact (mem_set he).imp id (List.mem_cons_of_mem _)

theorem mem_setAll : ∀ {es : List (κ × α)} {m : Keyed κ α} {e : κ × α}, e ∈ setAll m es → e ∈ m ∨ e ∈ es
  | [], _, _, h => .inl h
  | e' :: es, m, e, h => by
    rcases mem_setAll (m := set m e'.1 e'.2) h with hm | hes
    · rcases mem_set hm with rfl | hm
      · exact .inr List.mem_cons_self
      · exact .inl hm
    · exact .inr (List.mem_cons_of_mem _ hes)

theorem mem_keys_setAll : ∀ {es : List (κ × α)} {m : Keyed κ α} {key : κ},
    key ∈ keys (setAll m es) ↔ key ∈ keys m ∨ key ∈ keys es
  | [], m, key => by simp [setAll, keys]
  | e :: es, m, key => by
    have hset : key ∈ keys (set m e.1 e.2) ↔ key ∈ keys m ∨ key = e.1 := by
      rw [mem_keys, mem_keys, get?_set]
      by_cases h : e.1 = key
      · simp [h]
      · rw [if_neg h, or_iff_left fun heq => h heq.symm]
    have hrest : key ∈ keys (setAll m (e :: es)) ↔ key ∈ keys (set m e.1 e.2) ∨ key ∈ keys es :=
      mem_keys_setAll (m := set m e.1 e.2)
    have hcons : key ∈ keys (e :: es) ↔ key = e.1 ∨ key ∈ keys es := List.mem_cons
    rw [hrest, hset, hcons, or_assoc]

/-- **Setting a present key takes the place of its entry.** -/
theorem set_split : ∀ {m : Keyed κ α} {key : κ} {w : α}, get? m key = some w → ∃ before behind,
    m = before ++ (key, w) :: behind ∧ (∀ e ∈ before, e.1 ≠ key) ∧ ∀ v, set m key v = before ++ (key, v) :: behind
  | (k, u) :: m, key, w, h => by
    rw [get?_cons] at h
    by_cases hk : k = key
    · simp only [hk, if_true, Option.some.injEq] at h
      exact ⟨[], m, by simp [hk, h], by simp, fun v => by simp [set, hk]⟩
    · simp only [hk, if_false] at h
      obtain ⟨before, behind, hm, hb, hs⟩ := set_split h
      exact ⟨(k, u) :: before, behind, by simp [hm], List.forall_mem_cons.2 ⟨hk, hb⟩, fun v => by
        simp [set, hk, hs v]⟩

theorem set_of_get?_some {m : Keyed κ α} {key : κ} {v : α} (h : get? m key = some v) : set m key v = m := by
  obtain ⟨before, behind, hm, -, hset⟩ := set_split h
  rw [hset v, hm]

theorem setAll_append (m : Keyed κ α) (es es' : List (κ × α)) : setAll m (es ++ es') = setAll (setAll m es) es' :=
  List.foldl_append

theorem setAll_eq_self : ∀ {es : List (κ × α)} {m : Keyed κ α}, (∀ e ∈ es, get? m e.1 = some e.2) → setAll m es = m
  | [], _, _ => rfl
  | e :: es, m, h => by
    obtain ⟨he, hes⟩ := List.forall_mem_cons.1 h
    rw [setAll, List.foldl_cons, set_of_get?_some he]
    exact setAll_eq_self hes

theorem get?_erase : ∀ {m : Keyed κ α}, (keys m).Nodup → ∀ key key' : κ,
    get? (erase m key) key' = if key = key' then none else get? m key'
  | [], _, key, key' => by simp [erase]
  | (k, v) :: m, hn, key, key' => by
    obtain ⟨hk, hn⟩ := List.nodup_cons.1 hn
    rw [erase, get?_cons]
    by_cases h : k = key
    · subst h
      rw [if_pos rfl]
      by_cases h' : k = key'
      · subst h'
        rw [if_pos rfl]
        exact get?_eq_none.2 fun e he hek => hk (List.mem_map.2 ⟨e, he, hek⟩)
      · rw [if_neg h', if_neg h']
    · rw [if_neg h, get?_cons, get?_erase hn]
      by_cases h' : k = key'
      · rw [if_pos h', if_neg fun e => h (h'.trans e.symm), if_pos h']
      · rw [if_neg h', if_neg h']

theorem erase_sublist : ∀ (m : Keyed κ α) (key : κ), (erase m key).Sublist m
  | [], _ => List.Sublist.refl _
  | (k, v) :: m, key => by
    rw [erase]
    split
    · exact List.sublist_cons_self _ _
    · exact (erase_sublist m key).cons_cons _

theorem nodup_keys_erase {m : Keyed κ α} (hn : (keys m).Nodup) (key : κ) : (keys (erase m key)).Nodup :=
  hn.sublist ((erase_sublist m key).map Prod.fst)

theorem erase_set_self : ∀ (m : Keyed κ α) (key : κ) (v : α), erase (set m key v) key = erase m key
  | [], key, v => by simp [set, erase]
  | (k, w) :: m, key, v => by
    rw [set, erase]
    split
    · rename_i hk
      rw [erase, if_pos hk]
    · rename_i hk
      rw [erase, if_neg hk, erase_set_self m]

theorem erase_set_of_ne : ∀ (m : Keyed κ α) {key key' : κ} (v : α), key ≠ key' →
    erase (set m key v) key' = set (erase m key') key v
  | [], key, key', v, h => by simp [set, erase, h]
  | (k, w) :: m, key, key', v, h => by
    by_cases hk : k = key
    · subst hk
      rw [set, if_pos rfl, erase, if_neg h, erase, if_neg h, set, if_pos rfl]
    · rw [set, if_neg hk, erase, erase]
      split
      · rfl
      · rw [set, if_neg hk, erase_set_of_ne m v h]

theorem erase_append_singleton : ∀ (m : Keyed κ α) {key key' : κ} (v : α), key ≠ key' →
    erase (m ++ [(key, v)]) key' = erase m key' ++ [(key, v)]
  | [], key, key', v, h => by simp [erase, h]
  | (k, w) :: m, key, key', v, h => by
    rw [List.cons_append, erase, erase, erase_append_singleton m v h]
    split
    · rfl
    · rfl

theorem get?_erase_ne : ∀ (m : Keyed κ α) {key key' : κ}, key ≠ key' → get? (erase m key) key' = get? m key'
  | [], _, _, _ => rfl
  | (k, v) :: m, key, key', h => by
    rw [erase, get?_cons]
    split
    · rename_i hk
      rw [if_neg fun hk' => h (hk.symm.trans hk')]
    · rw [get?_cons, get?_erase_ne m h]

theorem filter_set_of_ne : ∀ (m : Keyed κ α) {key key' : κ} (v : α), key ≠ key' →
    (set m key v).filter (·.1 = key') = m.filter (·.1 = key')
  | [], key, key', v, h => by simp [set, h]
  | (k, w) :: m, key, key', v, h => by
    rw [set]
    split
    · rename_i hk
      have hne : k ≠ key' := fun hk' => h (hk.symm.trans hk')
      rw [List.filter_cons_of_neg (by simpa using hne), List.filter_cons_of_neg (by simpa using hne)]
    · rw [List.filter_cons, List.filter_cons, filter_set_of_ne m v h]

theorem perm_cons_erase : ∀ {m : Keyed κ α} {key : κ} {v : α}, get? m key = some v → m.Perm ((key, v) :: erase m key)
  | (k, w) :: m, key, v, h => by
    rw [get?_cons] at h
    rw [erase]
    by_cases hk : k = key
    · rw [if_pos hk, Option.some.injEq] at h
      rw [if_pos hk, hk, h]
    · rw [if_neg hk] at h
      rw [if_neg hk]
      exact ((perm_cons_erase h).cons (k, w)).trans (List.Perm.swap _ _ _)

omit [DecidableEq κ] in
theorem lastFirst_perm : ∀ m : Keyed κ α, (lastFirst m).Perm m
  | [] => List.Perm.refl _
  | [_] => List.Perm.refl _
  | a :: b :: m => by
    have hperm : ((b :: m).getLast (List.cons_ne_nil b m) :: (a :: b :: m).dropLast).Perm
        ((a :: b :: m).dropLast ++ [(b :: m).getLast (List.cons_ne_nil b m)]) :=
      @List.perm_append_comm _ [(b :: m).getLast (List.cons_ne_nil b m)] _
    have hsplit : (a :: b :: m).dropLast ++ [(b :: m).getLast (List.cons_ne_nil b m)] = a :: b :: m :=
      List.dropLast_concat_getLast (List.cons_ne_nil a (b :: m))
    rw [hsplit] at hperm
    exact hperm

theorem swapErase_perm : ∀ (m : Keyed κ α) (key : κ), (swapErase m key).Perm (erase m key)
  | [], _ => List.Perm.refl _
  | (k, v) :: m, key => by
    rw [swapErase, erase]
    split
    · exact lastFirst_perm m
    · exact (swapErase_perm m key).cons _

theorem get?_perm {m m' : Keyed κ α} (hn : (keys m).Nodup) (hp : m.Perm m') (key : κ) : get? m key = get? m' key := by
  have hn' : (keys m').Nodup := (hp.map Prod.fst).nodup_iff.1 hn
  refine Option.ext fun v => ?_
  rw [← mem_iff_get? hn, ← mem_iff_get? hn']
  exact hp.mem_iff

theorem nodup_keys_swapErase {m : Keyed κ α} (hn : (keys m).Nodup) (key : κ) : (keys (swapErase m key)).Nodup :=
  ((swapErase_perm m key).map Prod.fst).nodup_iff.2 (nodup_keys_erase hn key)

theorem get?_swapErase {m : Keyed κ α} (hn : (keys m).Nodup) (key key' : κ) :
    get? (swapErase m key) key' = if key = key' then none else get? m key' := by
  rw [get?_perm (nodup_keys_swapErase hn key) (swapErase_perm m key), get?_erase hn]

theorem get?_swapErase_self {m : Keyed κ α} (hn : (keys m).Nodup) (key : κ) : get? (swapErase m key) key = none := by
  rw [get?_swapErase hn, if_pos rfl]

theorem swapErase_of_get?_none : ∀ {m : Keyed κ α} {key : κ}, get? m key = none → swapErase m key = m
  | [], _, _ => rfl
  | (k, v) :: m, key, h => by
    rw [get?_cons] at h
    by_cases hk : k = key
    · rw [if_pos hk] at h
      cases h
    · rw [if_neg hk] at h
      rw [swapErase, if_neg hk, swapErase_of_get?_none h]

theorem swapErase_last : ∀ {m : Keyed κ α} {key : κ}, get? m key = none → ∀ v, swapErase (m ++ [(key, v)]) key = m
  | [], key, _, v => by simp [swapErase, lastFirst]
  | (k, w) :: m, key, h, v => by
    rw [get?_cons] at h
    by_cases hk : k = key
    · rw [if_pos hk] at h
      cases h
    · rw [if_neg hk] at h
      rw [List.cons_append, swapErase, if_neg hk, swapErase_last h v]

theorem get?_append : ∀ (m m' : Keyed κ α) (key : κ), get? (m ++ m') key = (get? m key).or (get? m' key)
  | [], _, _ => rfl
  | (k, v) :: m, m', key => by
    rw [List.cons_append, get?_cons, get?_cons]
    split
    · rfl
    · exact get?_append m m' key

theorem get?_filter_keys (p : κ → Bool) : ∀ (m : Keyed κ α) (key : κ),
    get? (m.filter fun e => p e.1) key = if p key = true then get? m key else none
  | [], key => by simp
  | (k, v) :: m, key => by
    rw [List.filter_cons, get?_cons]
    by_cases hk : k = key
    · subst hk
      by_cases hp : p k = true
      · rw [if_pos hp, get?_cons, if_pos rfl, if_pos rfl, if_pos hp]
      · rw [if_neg hp, get?_filter_keys p m, if_neg hp, if_neg hp]
    · by_cases hp : p k = true
      · rw [if_pos hp, get?_cons, if_neg hk, if_neg hk, get?_filter_keys p m]
      · rw [if_neg hp, if_neg hk, get?_filter_keys p m]

theorem setAll_eq_append : ∀ {m : Keyed κ α} {es : List (κ × α)}, (keys (m ++ es)).Nodup → setAll m es = m ++ es
  | m, [], _ => (List.append_nil m).symm
  | m, e :: es, h => by
    have hassoc : m ++ e :: es = (m ++ [e]) ++ es := by simp
    have hnew : get? m e.1 = none := get?_eq_none.2 fun e' he' heq => by
      rw [keys, List.map_append] at h
      exact (List.nodup_append.1 h).2.2 e'.1 (List.mem_map_of_mem he') e.1 (List.mem_map_of_mem List.mem_cons_self) heq
    rw [setAll, List.foldl_cons, set_of_get?_none hnew, hassoc]
    exact setAll_eq_append (hassoc ▸ h)

/-- **Entries under keys of their own are all kept.** -/
theorem ofList_eq_self {es : List (κ × α)} (h : (keys es).Nodup) : ofList es = es := setAll_eq_append h

theorem mem_keys_ofList {es : List (κ × α)} {key : κ} : key ∈ keys (ofList es) ↔ ∃ e ∈ es, e.1 = key := by
  rw [ofList, mem_keys_setAll, keys, keys, List.map_nil, List.mem_map]
  simp

theorem head?_keys_set {m : Keyed κ α} {k : κ} (h : (keys m).head? = some k) (key : κ) (v : α) :
    (keys (set m key v)).head? = some k := by
  rw [keys_set]
  split
  · exact h
  · rw [List.head?_append, h]
    rfl

theorem head?_keys_ofList (e : κ × α) (es : List (κ × α)) : (keys (ofList (e :: es))).head? = some e.1 := by
  have hall : ∀ (es : List (κ × α)) (m : Keyed κ α), (keys m).head? = some e.1 →
      (keys (setAll m es)).head? = some e.1 := by
    intro es
    induction es with
    | nil => exact fun _ h => h
    | cons x es ih => exact fun m h => ih _ (head?_keys_set h x.1 x.2)
  exact hall es [e] rfl

theorem ofList_ne_nil {es : List (κ × α)} (h : es ≠ []) : ofList es ≠ [] := by
  obtain ⟨e, es, rfl⟩ := List.exists_cons_of_ne_nil h
  intro hnil
  have hhead := head?_keys_ofList e es
  rw [hnil] at hhead
  cases hhead

omit [DecidableEq κ] in
def mapValues {β : Type} (f : κ → α → β) (m : Keyed κ α) : Keyed κ β := m.map fun e => (e.1, f e.1 e.2)

theorem get?_mapValues {β : Type} (f : κ → α → β) : ∀ (m : Keyed κ α) (key : κ),
    get? (mapValues f m) key = (get? m key).map (f key)
  | [], _ => rfl
  | (k, v) :: m, key => by
    have hcons : get? (mapValues f ((k, v) :: m)) key =
        if k = key then some (f k v) else get? (mapValues f m) key := rfl
    rw [hcons, get?_mapValues f m key, get?]
    split
    · rename_i h
      rw [h]
      rfl
    · rfl

theorem mapValues_set {β : Type} (f : κ → α → β) : ∀ (m : Keyed κ α) (key : κ) (v : α),
    mapValues f (set m key v) = set (mapValues f m) key (f key v)
  | [], _, _ => rfl
  | (k, w) :: m, key, v => by
    have hset : set (mapValues f ((k, w) :: m)) key (f key v) =
        if k = key then (k, f key v) :: mapValues f m else (k, f k w) :: set (mapValues f m) key (f key v) := rfl
    rw [hset, ← mapValues_set f m key v, set]
    split
    · rename_i h
      rw [h]
      rfl
    · rfl

end DocQuery.Keyed
