/-!
# What happened and has not been undone since

A state that is told by its history has what some event gave it, if no later one took it away (`Since`).  Of the last
event one need only ask whether it gives or takes: what went before it is a history of its own
(`since_append_singleton`).
-/
namespace DocQuery

variable {α : Type} {happens undoes : List α → α → Prop} {es : List α} {e : α}

/-- Something happened and nothing has undone it since; what does either may depend on what came before. -/
def Since (happens undoes : List α → α → Prop) (es : List α) : Prop :=
  ∃ before e after, es = before ++ e :: after ∧ happens before e ∧
    ∀ mid e' rest, after = mid ++ e' :: rest → ¬ undoes (before ++ e :: mid) e'

theorem not_since_nil : ¬ Since happens undoes ([] : List α) := by
  rintro ⟨before, e, after, heq, -⟩
  simp at heq

theorem split_append_singleton {before after : List α} {x : α} (h : es ++ [e] = before ++ x :: after) :
    (es = before ∧ e = x ∧ after = []) ∨ ∃ mid, after = mid ++ [e] ∧ es = before ++ x :: mid := by
  rcases List.eq_nil_or_concat after with rfl | ⟨mid, y, rfl⟩
  · obtain ⟨hes, hlast⟩ := List.append_inj' h rfl
    exact .inl ⟨hes, List.singleton_inj.1 hlast, rfl⟩
  · have hsplit : es ++ [e] = (before ++ x :: mid) ++ [y] := by simpa using h
    obtain ⟨hes, hlast⟩ := List.append_inj' hsplit rfl
    exact .inr ⟨mid, by rw [List.singleton_inj.1 hlast, List.concat_eq_append], hes⟩

/-- **The last event makes it so, or it was so before and the last event does not undo it.** -/
theorem since_append_singleton :
    Since happens undoes (es ++ [e]) ↔ happens es e ∨ ¬ undoes es e ∧ Since happens undoes es := by
  constructor
  · rintro ⟨before, x, after, heq, hx, hafter⟩
    rcases split_append_singleton heq with ⟨rfl, rfl, rfl⟩ | ⟨mid, rfl, rfl⟩
    · exact .inl hx
    · refine .inr ⟨hafter mid e [] rfl, before, x, mid, rfl, hx, fun mid' e' rest hmid => ?_⟩
      exact hafter mid' e' (rest ++ [e]) (by simp [hmid])
  · rintro (he | ⟨he, before, x, after, rfl, hx, hafter⟩)
    · exact ⟨es, e, [], rfl, he, fun mid e' rest h => by simp at h⟩
    · refine ⟨before, x, after ++ [e], by simp, hx, fun mid e' rest hmid => ?_⟩
      rcases split_append_singleton hmid with ⟨rfl, rfl, -⟩ | ⟨rest, -, hrest⟩
      · exact he
      · exact hafter mid e' rest hrest

theorem since_iff {undoes : α → Prop} : Since happens (fun _ => undoes) es ↔
    ∃ before e after, es = before ++ e :: after ∧ happens before e ∧ ∀ e' ∈ after, ¬ undoes e' := by
  constructor
  · rintro ⟨before, e, after, heq, he, hafter⟩
    refine ⟨before, e, after, heq, he, fun e' hmem => ?_⟩
    obtain ⟨mid, rest, hmid⟩ := List.mem_iff_append.1 hmem
    exact hafter mid e' rest hmid
  · rintro ⟨before, e, after, heq, he, hafter⟩
    refine ⟨before, e, after, heq, he, fun mid e' rest hmid => hafter e' ?_⟩
    simp [hmid]

end DocQuery
