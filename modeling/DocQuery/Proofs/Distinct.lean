import DocQuery.Proofs.Documents
import DocQuery.Proofs.Grouping
import DocQuery.Proofs.NumberOrder
import DocQuery.Proofs.ValueText
import DocQuery.Store.Read

/-!
# Values told apart by their texts

The values that `distinct` gives and the rows of a grouping are told apart by texts.  The text of a value tells all of
it (`Value.text_injective`), the order of its keys and the signs of its zeros included, which do not count for equality.
So equal values are told apart if they are spelled apart, and only then (`deduplicates_equals_iff`).  The values with
only one spelling are those without zero floats and without objects of several keys (`Value.soleSpelling_iff`).
-/
namespace DocQuery

/-! ## Spellings -/

namespace Value

/-- Nothing in the value can be spelled differently: no float is zero, and no object has two keys to exchange. -/
inductive SoleSpelling : Value → Prop
  | null : SoleSpelling null
  | bool (b : Bool) : SoleSpelling (bool b)
  | int (n : Int) : SoleSpelling (int n)
  | float {x : Float} (nonzero : (x == 0) = false) : SoleSpelling (float x)
  | str (s : String) : SoleSpelling (str s)
  | arr {xs : List Value} (items : ∀ v ∈ xs, SoleSpelling v) : SoleSpelling (arr xs)
  | obj {fs : Fields} (keys : fs.length ≤ 1) (fields : ∀ e ∈ fs, SoleSpelling e.2) : SoleSpelling (obj fs)

theorem SoleSpelling.eq_of_beq {v : Value} (h : v.SoleSpelling) : ∀ {w : Value}, v.beq w = true → v = w := by
  induction h with
  | null => exact beq_null_iff.1
  | bool b => exact beq_bool_iff.1
  | int n => exact beq_int_iff.1
  | float hx =>
    intro w hw
    obtain ⟨y, rfl, hy⟩ := beq_float_iff.1 hw
    rw [float_eq_of_beq hx hy]
  | str s => exact beq_str_iff.1
  | @arr xs _ ih =>
    intro w hw
    obtain ⟨ys, rfl, hlength, hitems⟩ := beq_arr_iff.1 hw
    have hget : ∀ (i : Nat) (hx : i < xs.length) (hy : i < ys.length), xs[i] = ys[i] := fun i hx hy =>
      ih _ (List.getElem_mem hx) (hitems i _ _ (List.getElem?_eq_getElem hx) (List.getElem?_eq_getElem hy))
    rw [List.ext_getElem hlength hget]
  | @obj fs hkeys _ ih =>
    intro w hw
    obtain ⟨gs, rfl, hlength, hfields⟩ := beq_obj_iff.1 hw
    match fs, gs with
    | [], [] => rfl
    | [(k, v)], [(k', v')] =>
      obtain ⟨u, hu, heq⟩ := hfields _ List.mem_cons_self
      obtain ⟨rfl, rfl⟩ := Prod.mk.inj (List.mem_singleton.1 (Keyed.mem_of_get? hu))
      have hv : v = u := ih _ List.mem_cons_self heq
      rw [hv]

theorem beq_arr_replace {before behind : List Value} {v w : Value} (h : (arr (before ++ v :: behind)).WellFormed)
    (heq : v.beq w = true) : (arr (before ++ v :: behind)).beq (arr (before ++ w :: behind)) = true := by
  refine beq_arr_iff.2 ⟨_, rfl, by simp, fun i x y hx hy => ?_⟩
  rcases lt_trichotomy i before.length with hlt | rfl | hgt
  · rw [List.getElem?_append_left hlt] at hx hy
    obtain rfl := Option.some.inj (hx.symm.trans hy)
    exact beq_self (h.items x (List.mem_append_left _ (List.mem_of_getElem? hx)))
  · rw [List.getElem?_append_right (Nat.le_refl _), Nat.sub_self] at hx hy
    cases hx
    cases hy
    exact heq
  · obtain ⟨j, rfl⟩ := Nat.exists_eq_add_of_lt hgt
    rw [List.getElem?_append_right (by omega), show before.length + j + 1 - before.length = j + 1 by omega,
      List.getElem?_cons_succ] at hx hy
    obtain rfl := Option.some.inj (hx.symm.trans hy)
    exact beq_self (h.items x (List.mem_append_right _ (List.mem_cons_of_mem _ (List.mem_of_getElem? hx))))

theorem beq_obj_swap {a b : String × Value} {fs : Fields} (h : (obj (a :: b :: fs)).WellFormed) :
    (obj (a :: b :: fs)).beq (obj (b :: a :: fs)) = true := by
  cases h with
  | obj hkeys hfields =>
    have hswap : (Keyed.keys (b :: a :: fs)).Nodup := (List.Perm.swap b.1 a.1 _).nodup hkeys
    refine beq_obj_iff.2 ⟨_, rfl, rfl, fun e he => ⟨e.2, ?_, beq_self (hfields e he)⟩⟩
    exact (Keyed.mem_iff_get? hswap).1 ((List.Perm.swap b a fs).mem_iff.1 he)

/-- **A value has one spelling just if no other well-formed value is equal to it.** -/
theorem soleSpelling_iff {v : Value} (hv : v.WellFormed) :
    v.SoleSpelling ↔ ∀ w : Value, w.WellFormed → v.beq w = true → v = w := by
  refine ⟨fun h w _ => h.eq_of_beq, fun h => ?_⟩
  induction hv with
  | null => exact .null
  | bool b => exact .bool b
  | int n => exact .int n
  | @float x hx =>
    refine .float (Bool.eq_false_iff.2 fun hzero => ?_)
    -- both zeros are equal to a zero, but they are not one value
    have hother : (x == -0) = true := float_beq_trans hzero rfl
    have hpos := Value.float.inj (h (float 0) (.float rfl) hzero)
    have hneg := Value.float.inj (h (float (-0)) (.float rfl) hother)
    exact absurd (hpos.symm.trans hneg) (by decide)
  | str s => exact .str s
  | @arr xs hxs ih =>
    refine .arr fun x hx => ih x hx fun w hw heq => ?_
    obtain ⟨before, behind, rfl⟩ := List.append_of_mem hx
    have hall : (arr (before ++ w :: behind)).WellFormed := .arr fun u hu => by
      rcases List.mem_append.1 hu with hu | hu
      · exact hxs u (List.mem_append_left _ hu)
      · rcases List.mem_cons.1 hu with rfl | hu
        · exact hw
        · exact hxs u (List.mem_append_right _ (List.mem_cons_of_mem _ hu))
    have hsame := Value.arr.inj (h _ hall (beq_arr_replace (.arr hxs) heq))
    exact (List.cons.inj (List.append_cancel_left hsame)).1
  | @obj fs hkeys hfs ih =>
    match fs with
    | [] => exact .obj (Nat.zero_le 1) fun e he => by cases he
    | [(k, v)] =>
      refine .obj (Nat.le_refl 1) (List.forall_mem_singleton.2 (ih _ List.mem_cons_self fun w hw heq => ?_))
      have hone : (single k w).WellFormed := .single hw
      have hsame := h (single k w) hone (beq_obj_iff.2 ⟨_, rfl, rfl, List.forall_mem_singleton.2
        ⟨w, by rw [Keyed.get?_cons, if_pos rfl], heq⟩⟩)
      exact (Prod.mk.inj (List.cons.inj (Value.obj.inj hsame)).1).2
    | a :: b :: fs =>
      have hperm := List.Perm.swap b a fs
      have hswap : (obj (b :: a :: fs)).WellFormed :=
        .obj ((List.Perm.swap b.1 a.1 _).nodup hkeys) fun e he => hfs e (hperm.mem_iff.2 he)
      have hsame := List.cons.inj (Value.obj.inj (h _ hswap (beq_obj_swap (.obj hkeys hfs))))
      exact absurd (hsame.1 ▸ List.mem_cons_self) (List.nodup_cons.1 hkeys).1

/-- Equal ones among the values are spelled alike: they are one value. -/
def SpelledAlike (vs : List Value) : Prop := ∀ v ∈ vs, ∀ w ∈ vs, v.beq w = true → v = w

theorem spelledAlike_of_sole {vs : List Value} (h : ∀ v ∈ vs, v.SoleSpelling) : SpelledAlike vs :=
  fun v hv _ _ heq => (h v hv).eq_of_beq heq

def Unequal (vs : List Value) : Prop := vs.Pairwise fun v w => v.beq w = false

/-! ## Values once per text -/

/-- The values have the texts of those that were found, each once, in the order in which they were first met. -/
def OncePerText (found values : List Value) : Prop := values.map text = (found.map text).eraseDups

end Value

theorem nodup_eraseDups {α : Type} [DecidableEq α] : ∀ l : List α, l.eraseDups.Nodup
  | [] => List.nodup_nil
  | a :: l => by
    rw [List.eraseDups_cons, List.nodup_cons, List.mem_eraseDups]
    exact ⟨by simp, nodup_eraseDups _⟩
  termination_by l => l.length
  decreasing_by exact Nat.lt_succ_of_le (List.length_filter_le _ l)

namespace Value.OncePerText

variable {found values : List Value}

theorem mem_iff (h : OncePerText found values) {v : Value} : v ∈ values ↔ v ∈ found := by
  have htext : v.text ∈ values.map text ↔ v.text ∈ found.map text := by rw [h, List.mem_eraseDups]
  rwa [List.mem_map_of_injective text_injective, List.mem_map_of_injective text_injective] at htext

theorem nodup (h : OncePerText found values) : values.Nodup :=
  List.Nodup.of_map text (h ▸ nodup_eraseDups _)

/-- **Once per text, no two are equal just if the values found are spelled alike.** -/
theorem unequal_iff (h : OncePerText found values) (hw : ∀ v ∈ found, v.WellFormed) :
    Unequal values ↔ SpelledAlike found := by
  constructor
  · intro hunequal v hv w hv' heq
    have hboth : values.Pairwise fun v w => v.beq w = false ∧ w.beq v = false := by
      refine hunequal.imp_of_mem fun {v w} hv hv' hne => ⟨hne, Bool.eq_false_iff.2 fun heq => ?_⟩
      rw [beq_symm (hw w (h.mem_iff.1 hv')) (hw v (h.mem_iff.1 hv)) heq] at hne
      cases hne
    by_contra hne
    have hsymm : Std.Symm fun v w : Value => v.beq w = false ∧ w.beq v = false := ⟨fun _ _ => And.symm⟩
    have hfalse := (hboth.forall (h.mem_iff.2 hv) (h.mem_iff.2 hv') hne).1
    rw [heq] at hfalse
    cases hfalse
  · intro halike
    refine h.nodup.imp_of_mem fun {v w} hv hv' hne => Bool.eq_false_iff.2 fun heq => hne ?_
    exact halike v (h.mem_iff.1 hv) w (h.mem_iff.1 hv') heq

end Value.OncePerText

/-! ## Distinct values -/

namespace Store

theorem text_distinctByText : ∀ (seen : List String) (vs : List Value),
    (distinctByText seen vs).map Value.text = ((vs.map Value.text).filter (· ∉ seen)).eraseDups
  | _, [] => rfl
  | seen, v :: vs => by
    rw [distinctByText, List.map_cons]
    by_cases h : v.text ∈ seen
    · rw [if_pos (List.contains_iff_mem.2 h), text_distinctByText seen vs, List.filter_cons_of_neg (by simpa using h)]
    · rw [if_neg (mt List.contains_iff_mem.1 h), List.map_cons, text_distinctByText _ vs,
        List.filter_cons_of_pos (by simpa using h), List.eraseDups_cons, List.filter_filter]
      congr 2
      refine List.filter_congr fun t _ => ?_
      by_cases ht : t = v.text
      · simp [ht]
      · simp [ht]

def valuesFound (path : String) (docs : List Value) : List Value := docs.flatMap (valuesAt path)

theorem oncePerText_distinct (path : String) (docs : List Value) :
    Value.OncePerText (valuesFound path docs) (distinct path docs) := by
  rw [Value.OncePerText, distinct, text_distinctByText, valuesFound]
  simp

theorem wellFormed_valuesFound {path : String} {docs : List Value} (hdocs : ∀ d ∈ docs, d.WellFormed) :
    ∀ v ∈ valuesFound path docs, v.WellFormed := by
  intro v hv
  obtain ⟨d, hd, hv⟩ := List.mem_flatMap.1 hv
  rw [valuesAt] at hv
  split at hv
  · rename_i xs hat
    exact ((hdocs d hd).path? hat).items v hv
  · rename_i w _ hat
    obtain rfl := List.mem_singleton.1 hv
    exact (hdocs d hd).path? hat
  · cases hv

theorem command_distinct {s : Store} {database table path : String} {c : Command} {f : Filter}
    (hname : c.name = "distinct") (htable : (c.get? "distinct").bind Value.str? = some table)
    (hkey : (c.get? "key").bind Value.str? = some path) (hf : Filter.ofValue (Value.orNull (c.get? "query")) = .ok f) :
    s.command database c = .ok (s, okRow [("values", .arr (distinct path
      ((s.documents (.resolve database table)).filter f.holds)))]) := by
  unfold command commandTarget matching
  simp only [hname, htable, hkey, hf]
  rfl

end Store

/-! ## Keys of groups -/

theorem GroupKey.wellFormed_ofDocument (k : GroupKey) {doc : Value} (hd : doc.WellFormed) :
    (k.ofDocument doc).WellFormed := by
  have hat : ∀ path, (Value.orNull (doc.path? path)).WellFormed := fun path => by
    cases hpath : doc.path? path with
    | none => exact .null
    | some v => exact hd.path? hpath
  cases k with
  | all => exact .null
  | path path => exact hat path
  | paths parts =>
    refine .setAll (.obj List.nodup_nil fun _ he => by cases he) fun e he => ?_
    obtain ⟨part, -, rfl⟩ := List.mem_map.1 he
    exact hat part.2

/-! ## Equal values told apart -/

/-- **Equal values are told apart just if they are spelled apart.**  The distinct command gives the values that it
finds, each text once, so that no two of them are equal just if the values found are spelled alike.  And no two rows of
a grouping have equal keys under `_id` just if the keys of the documents are spelled alike. -/
theorem deduplicates_equals_iff {s : Store} (hs : s.HoldsDocuments) (database : String) {table path : String}
    {c : Command} {f : Filter} (hname : c.name = "distinct")
    (htable : (c.get? "distinct").bind Value.str? = some table)
    (hkey : (c.get? "key").bind Value.str? = some path) (hf : Filter.ofValue (Value.orNull (c.get? "query")) = .ok f)
    {spec : Value} (hspec : spec.WellFormed) {g : Grouping} (hg : Grouping.ofValue spec = .ok g) {docs : List Value}
    (hdocs : ∀ d ∈ docs, d.WellFormed) :
    (∃ found values, found = Store.valuesFound path ((s.documents (.resolve database table)).filter f.holds) ∧
      s.command database c = .ok (s, Store.okRow [("values", .arr values)]) ∧
      Value.OncePerText found values ∧ (Value.Unequal values ↔ Value.SpelledAlike found)) ∧
    ∃ ids : List Value, (g.apply docs).map (·.field? "_id") = ids.map some ∧
      Value.OncePerText (docs.map g.key.ofDocument) ids ∧
      (Value.Unequal ids ↔ Value.SpelledAlike (docs.map g.key.ofDocument)) := by
  constructor
  · have hmatching : ∀ d ∈ (s.documents (.resolve database table)).filter f.holds, d.WellFormed := fun d hd =>
      (hs.documents _ d (List.mem_filter.1 hd).1).wellFormed
    have honce := Store.oncePerText_distinct path ((s.documents (.resolve database table)).filter f.holds)
    exact ⟨_, _, rfl, Store.command_distinct hname htable hkey hf, honce,
      honce.unequal_iff (Store.wellFormed_valuesFound hmatching)⟩
  · have honce : Value.OncePerText (docs.map g.key.ofDocument) ((g.groups docs).map fun e => e.2.1) := by
      rw [Value.OncePerText, List.map_map, List.map_map]
      exact g.text_groups docs
    refine ⟨_, Grouping.field?_id_apply hspec hg docs, honce, honce.unequal_iff fun v hv => ?_⟩
    obtain ⟨d, hd, rfl⟩ := List.mem_map.1 hv
    exact g.key.wellFormed_ofDocument (hdocs d hd)

def distinctOf (table path : String) : Command :=
  .build "distinct" (.str table) [("key", .str path), ("query", .obj [])]

def posts : List Value :=
  [.obj [("_id", .int 1), ("tags", .arr [.str "a", .str "b"])], .obj [("_id", .int 2), ("tags", .str "a")]]

def byTags : Grouping := ⟨.path "tags", []⟩

theorem isDocument_posts : ∀ d ∈ posts, d.IsDocument := by
  have htags : (Value.arr [.str "a", .str "b"]).WellFormed :=
    .arr (List.forall_mem_cons.2 ⟨.str _, List.forall_mem_singleton.2 (.str _)⟩)
  refine List.forall_mem_cons.2 ⟨⟨.obj (by decide) ?_, rfl⟩, List.forall_mem_singleton.2 ⟨.obj (by decide) ?_, rfl⟩⟩
  · exact List.forall_mem_cons.2 ⟨.int _, List.forall_mem_singleton.2 htags⟩
  · exact List.forall_mem_cons.2 ⟨.int _, List.forall_mem_singleton.2 (.str _)⟩

theorem deduplicates_equals_iff_posts :
    Store.HoldsDocuments [("app.t", posts)] ∧ (distinctOf "t" "tags").name = "distinct" ∧
    ((distinctOf "t" "tags").get? "distinct").bind Value.str? = some "t" ∧
    ((distinctOf "t" "tags").get? "key").bind Value.str? = some "tags" ∧
    Filter.ofValue (Value.orNull ((distinctOf "t" "tags").get? "query")) = .ok [] ∧
    (Value.single "_id" (.str "$tags")).WellFormed ∧
    Grouping.ofValue (.single "_id" (.str "$tags")) = .ok byTags ∧ (∀ d ∈ posts, d.WellFormed) ∧
    (∃ values, Store.command [("app.t", posts)] "app" (distinctOf "t" "tags") =
      .ok ([("app.t", posts)], Store.okRow [("values", .arr values)]) ∧ Value.Unequal values) ∧
    ∃ ids : List Value, (byTags.apply posts).map (·.field? "_id") = ids.map some ∧ Value.Unequal ids := by
  have hstore : Store.HoldsDocuments [("app.t", posts)] := List.forall_mem_singleton.2 isDocument_posts
  have hwf : ∀ d ∈ posts, d.WellFormed := fun d hd => (isDocument_posts d hd).wellFormed
  have hspec : (Value.single "_id" (.str "$tags")).WellFormed := .single (.str _)
  obtain ⟨⟨found, values, hfound, hvalues, -, hunequal⟩, ids, hids, -, hunequal'⟩ :=
    deduplicates_equals_iff hstore "app" (c := distinctOf "t" "tags") rfl rfl rfl (f := []) rfl hspec (g := byTags) rfl
      hwf
  refine ⟨hstore, rfl, rfl, rfl, rfl, hspec, rfl, hwf, ⟨values, hvalues, hunequal.2 ?_⟩, ids, hids, hunequal'.2 ?_⟩
  · obtain rfl : found = [.str "a", .str "b", .str "a"] := hfound
    refine Value.spelledAlike_of_sole ?_
    simp only [List.forall_mem_cons]
    exact ⟨.str _, .str _, .str _, fun _ hv => by cases hv⟩
  · refine Value.spelledAlike_of_sole (List.forall_mem_cons.2 ⟨.arr ?_, List.forall_mem_singleton.2 (.str _)⟩)
    exact List.forall_mem_cons.2 ⟨.str _, List.forall_mem_singleton.2 (.str _)⟩

def twoOrders : List Value :=
  [.obj [("_id", .int 1), ("v", .obj [("a", .int 1), ("b", .int 2)])],
    .obj [("_id", .int 2), ("v", .obj [("b", .int 2), ("a", .int 1)])]]

/-- **Equal values with their keys in different order are not told to be equal.** -/
theorem deduplication_keeps_equals :
    Store.command [("app.t", twoOrders)] "app" (distinctOf "t" "v") = .ok ([("app.t", twoOrders)], Store.okRow
      [("values", .arr [.obj [("a", .int 1), ("b", .int 2)], .obj [("b", .int 2), ("a", .int 1)]])]) ∧
    (Grouping.mk (.path "v") []).apply twoOrders = [.single "_id" (.obj [("a", .int 1), ("b", .int 2)]),
      .single "_id" (.obj [("b", .int 2), ("a", .int 1)])] ∧
    (Value.obj [("a", .int 1), ("b", .int 2)]).beq (.obj [("b", .int 2), ("a", .int 1)]) = true := by
  refine ⟨?_, ?_, ?_⟩
  · rfl
  · rfl
  · decide

end DocQuery
