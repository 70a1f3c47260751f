import DocQuery.Endpoint.Address
import Mathlib.Data.List.TakeWhile

/-!
# What a logged address tells of its password

The password ends for a mask at the first `@` behind it.  What a password has behind an `@` of its own stays in sight
(`masked_address`), so the logged address is the same for two passwords just if they agree on that
(`logged_alike_iff`).
-/
namespace DocQuery

def Settings.server (s : Settings) : String := s.hostname ++ (if s.hostport = "" then "" else ":" ++ s.hostport)

namespace Address

def behindAt? (s : List Char) : Option (List Char) :=
  match s.dropWhile (· != '@') with
  | '@' :: rest => some rest
  | _ => none

/-- A user that is seen as one in front of a password. -/
def IsUser (s : String) : Prop := s ≠ "" ∧ ∀ c ∈ s.toList, c ≠ ':' ∧ c ≠ '@' ∧ c ≠ '/'

theorem behindAt?_cons (c : Char) (s : List Char) :
    behindAt? (c :: s) = if c = '@' then some s else behindAt? s := by
  by_cases hc : c = '@'
  · subst hc
    rw [if_pos rfl]
    rfl
  · have hdrop : (c :: s).dropWhile (· != '@') = s.dropWhile (· != '@') :=
      List.dropWhile_cons_of_pos (by simpa using hc)
    rw [if_neg hc, behindAt?, hdrop, behindAt?]

theorem behindAt?_append : ∀ s t : List Char,
    behindAt? (s ++ '@' :: t) = some ((behindAt? s).elim t fun rest => rest ++ '@' :: t)
  | [], t => by rw [List.nil_append, behindAt?_cons, if_pos rfl]; rfl
  | c :: s, t => by
    rw [List.cons_append, behindAt?_cons, behindAt?_cons]
    by_cases hc : c = '@'
    · rw [if_pos hc, if_pos hc]; rfl
    · rw [if_neg hc, if_neg hc, behindAt?_append s t]

theorem behindAt?_eq_none : ∀ {s : List Char}, behindAt? s = none ↔ '@' ∉ s
  | [] => by simp [behindAt?]
  | c :: s => by
    rw [behindAt?_cons]
    by_cases hc : c = '@'
    · simp [hc]
    · rw [if_neg hc, behindAt?_eq_none, List.mem_cons, not_or]
      exact ⟨fun h => ⟨fun he => hc he.symm, h⟩, fun h => h.2⟩

theorem maskCredentials?_user {user : String} (h : IsUser user) (r : List Char) :
    maskCredentials? (user.toList ++ ':' :: r) =
      (behindAt? r).map fun rest => user.toList ++ ":***@".toList ++ rest := by
  obtain ⟨hne, hplain⟩ := h
  have hall : ∀ c ∈ user.toList, (c != ':' && c != '@' && c != '/') = true := fun c hc => by
    obtain ⟨hcolon, hat, hslash⟩ := hplain c hc
    simp [hcolon, hat, hslash]
  have htake : (user.toList ++ ':' :: r).takeWhile (fun c => c != ':' && c != '@' && c != '/') = user.toList := by
    rw [List.takeWhile_append_of_pos hall, List.takeWhile_cons_of_neg (by decide), List.append_nil]
  have hdrop : (user.toList ++ ':' :: r).dropWhile (fun c => c != ':' && c != '@' && c != '/') = ':' :: r := by
    rw [List.dropWhile_append_of_pos hall, List.dropWhile_cons_of_neg (by decide)]
  unfold maskCredentials? behindAt?
  simp only [htake, hdrop]
  cases hcs : user.toList with
  | nil => exact absurd (String.toList_eq_nil_iff.1 hcs) hne
  | cons c cs =>
    simp only
    generalize r.dropWhile (· != '@') = behind
    rcases behind with _ | ⟨d, rest⟩
    · rfl
    · by_cases hd : d = '@' <;> simp [hd]

theorem maskList_append : ∀ {s : List Char}, ':' ∉ s → ∀ t, maskList (s ++ t) = s ++ maskList t
  | [], _, _ => rfl
  | c :: s, h, t => by
    rw [List.mem_cons, not_or] at h
    rw [List.cons_append, maskList, maskList_append h.2, List.cons_append]
    exact fun _ hc _ => h.1 hc.symm

theorem maskList_scheme (r : List Char) : maskList ("mongodb://".toList ++ r) =
    "mongodb:".toList ++ match maskCredentials? r with
      | some masked => "//".toList ++ masked
      | none => maskList ("//".toList ++ r) := by
  have hscheme : "mongodb://".toList ++ r = "mongodb".toList ++ ':' :: '/' :: '/' :: r := rfl
  rw [hscheme, maskList_append (by decide), maskList]
  cases maskCredentials? r with
  | none => rfl
  | some masked => rfl

section

variable {s : Settings} {p q : String}

/-- **A mask ends at the first `@` of the password**: what the password has behind it stays in sight. -/
theorem masked_address (hdsn : s.dsn = "") (huser : IsUser s.username) (hp : p ≠ "") :
    masked { s with password := p }.address = "mongodb://" ++ s.username ++ ":***@" ++
      ((behindAt? p.toList).elim "" fun rest => String.ofList rest ++ "@") ++ s.server := by
  have haddress : { s with password := p }.address.toList =
      "mongodb://".toList ++ (s.username.toList ++ ':' :: (p.toList ++ '@' :: s.server.toList)) := by
    simp [Settings.address, Settings.credentials, Settings.server, hdsn, huser.1, hp]
  rw [masked, haddress, maskList_scheme, maskCredentials?_user huser, behindAt?_append]
  refine String.toList_inj.1 ?_
  cases behindAt? p.toList with
  | none => simp
  | some rest => simp

/-- **Two passwords are logged alike just if they have the same behind their first `@`**, or both no `@`.  Of one
without `@` nothing is logged. -/
theorem logged_alike_iff (hdsn : s.dsn = "") (huser : IsUser s.username) (hp : p ≠ "") (hq : q ≠ "") :
    (masked { s with password := p }.address = masked { s with password := q }.address ↔
      behindAt? p.toList = behindAt? q.toList) ∧
    (behindAt? p.toList = none ↔ '@' ∉ p.toList) ∧
    ('@' ∉ p.toList → masked { s with password := p }.address = "mongodb://" ++ s.username ++ ":***@" ++ s.server) := by
  refine ⟨⟨fun h => ?_, fun h => ?_⟩, behindAt?_eq_none, fun hfree => ?_⟩
  · rw [masked_address hdsn huser hp, masked_address hdsn huser hq, String.append_left_inj,
      String.append_right_inj] at h
    cases hpr : behindAt? p.toList with
    | none =>
      cases hqr : behindAt? q.toList with
      | none => rfl
      | some rest => simp [hpr, hqr] at h
    | some rest =>
      cases hqr : behindAt? q.toList with
      | none => simp [hpr, hqr] at h
      | some rest' =>
        simp only [hpr, hqr, Option.elim_some, String.append_left_inj] at h
        rw [String.ofList_injective h]
  · rw [masked_address hdsn huser hp, masked_address hdsn huser hq, h]
  · rw [masked_address hdsn huser hp, behindAt?_eq_none.2 hfree]
    simp

end

def withUser : Settings := { hostname := "db", username := "u" }

theorem isUser_withUser : IsUser withUser.username := by
  refine ⟨by decide, fun c hc => ?_⟩
  obtain rfl : c = 'u' := by simpa [withUser] using hc
  decide

theorem logged_alike_slashes : withUser.dsn = "" ∧ IsUser withUser.username ∧ "x" ≠ "" ∧ "p:/q" ≠ "" ∧
    masked { withUser with password := "x" }.address = masked { withUser with password := "p:/q" }.address := by
  have h := logged_alike_iff (s := withUser) (p := "x") (q := "p:/q") rfl isUser_withUser (by decide) (by decide)
  exact ⟨rfl, isUser_withUser, by decide, by decide, h.1.2 (by decide)⟩

/-- **A password with an `@` is logged from there on**, so another one is not logged alike. -/
theorem at_sign_shows_password : withUser.dsn = "" ∧ IsUser withUser.username ∧ "x" ≠ "" ∧ "a@b" ≠ "" ∧
    masked { withUser with password := "x" }.address = "mongodb://u:***@db:27017" ∧
    masked { withUser with password := "a@b" }.address = "mongodb://u:***@b@db:27017" ∧
    masked { withUser with password := "x" }.address ≠ masked { withUser with password := "a@b" }.address :=
  ⟨rfl, isUser_withUser, by decide, by decide, by decide, by decide, by decide⟩

end Address

end DocQuery
