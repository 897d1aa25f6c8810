import ScanPlatform.Base.CondMachine

/-!
# Locks with fencing tokens

A machine of conditional updates has a lock when its state names at most one **owner** token and
every action plays one `Role` towards it: it acquires the lock with a token, uses it or releases it
under the token it carries, revokes it whoever holds it, or has nothing to do with it.

* `Fenced`: the actions of a machine keep to their roles;
* `holder`, **`owner_run`**: the owner after a run is computed from the effective actions alone;
* `holder_eq_some`, **`held_since`**: an action fenced by `t` takes effect only when the lock was
  acquired with `t` and only passive actions took effect since;
* **`releases_le_acquires`**: releases under `t` are at most as many as acquisitions with `t`.
-/

set_option autoImplicit false

namespace FenceLock

open CondMachine

variable {S A T : Type*}

/-- What an action does to the lock. -/
inductive Role (T : Type*) where
  | acquire (t : T)
  | use (t : T)
  | release (t : T)
  | revoke
  | other

/-- Actions of this role leave the owner as it is. -/
def Role.Passive : Role T → Prop
  | .use _ | .other => True
  | .acquire _ | .release _ | .revoke => False

/-- The owner after an effective action. -/
def Role.after : Role T → Option T → Option T
  | .acquire t, _ => some t
  | .release _, _ | .revoke, _ => none
  | .use _, o | .other, o => o

/-- The token that an action of this role must find in the lock. -/
def Role.fence : Role T → Option T
  | .use t | .release t => some t
  | .acquire _ | .revoke | .other => none

/-- **A fenced machine.** Effective actions change the owner as their role says, and those that
carry a token found it in the lock. -/
structure Fenced (step : A → S → Option S) (owner : S → Option T) (role : A → Role T) : Prop where
  after : ∀ {s a s'}, step a s = some s' → owner s' = (role a).after (owner s)
  fence : ∀ {s a s' t}, step a s = some s' → (role a).fence = some t → owner s = some t

/-- The owner after a list of effective actions. -/
def holder (role : A → Role T) (o : Option T) (l : List A) : Option T :=
  l.foldl (fun o a => (role a).after o) o

theorem Role.Passive.after {r : Role T} (h : r.Passive) (o : Option T) : r.after o = o := by
  cases r <;> first | rfl | exact h.elim

theorem holder_append (role : A → Role T) (o : Option T) (l m : List A) :
    holder role o (l ++ m) = holder role (holder role o l) m :=
  List.foldl_append

theorem holder_passive (role : A → Role T) (o : Option T) {l : List A}
    (h : ∀ a ∈ l, (role a).Passive) : holder role o l = o := by
  induction l generalizing o with
  | nil => rfl
  | cons a l ih =>
    change holder role ((role a).after o) l = o
    rw [(h a List.mem_cons_self).after, ih o fun b hb => h b (List.mem_cons_of_mem _ hb)]

/-- **A lock that starts free is held with `t` exactly when `t` acquired it and only passive
actions followed.** -/
theorem holder_eq_some {role : A → Role T} {l : List A} {t : T} :
    holder role none l = some t ↔
      ∃ l₁ a l₂, l = l₁ ++ a :: l₂ ∧ role a = .acquire t ∧ ∀ b ∈ l₂, (role b).Passive := by
  constructor
  · induction l using List.reverseRecOn with
    | nil => intro h; simp [holder] at h
    | append_singleton l a ih =>
      intro h
      rw [holder_append] at h
      change (role a).after (holder role none l) = some t at h
      have hpassive : (role a).Passive → holder role none l = some t → ∃ l₁ b l₂,
          l ++ [a] = l₁ ++ b :: l₂ ∧ role b = .acquire t ∧ ∀ c ∈ l₂, (role c).Passive := by
        intro hp hl
        obtain ⟨l₁, b, l₂, rfl, hb, hl₂⟩ := ih hl
        refine ⟨l₁, b, l₂ ++ [a], by simp, hb, ?_⟩
        intro c hc
        rcases List.mem_append.mp hc with hc | hc
        · exact hl₂ c hc
        · rw [List.mem_singleton.mp hc]; exact hp
      cases hr : role a with
      | acquire u =>
        rw [hr] at h
        obtain rfl : u = t := by simpa [Role.after] using h
        exact ⟨l, a, [], rfl, hr, by simp⟩
      | use u => rw [hr] at h; exact hpassive (by rw [hr]; trivial) h
      | release u => rw [hr] at h; simp [Role.after] at h
      | revoke => rw [hr] at h; simp [Role.after] at h
      | other => rw [hr] at h; exact hpassive (by rw [hr]; trivial) h
  · rintro ⟨l₁, a, l₂, rfl, ha, hl₂⟩
    rw [holder_append]
    change holder role ((role a).after (holder role none l₁)) l₂ = some t
    rw [holder_passive role _ hl₂, ha]
    rfl

section Runs

variable {step : A → S → Option S} {owner : S → Option T} {role : A → Role T}
  (F : Fenced step owner role)

include F

/-- **The owner after a run** is the holder that its effective actions leave. -/
theorem owner_run (s : S) (σ : List A) :
    owner (run step s σ) = holder role (owner s) (taken step s σ) := by
  induction σ using List.reverseRecOn with
  | nil => rfl
  | append_singleton σ a ih =>
    rw [run_concat]
    rcases next_cases step (run step s σ) a with h | ⟨h, h'⟩
    · rw [taken_concat_some h, holder_append, F.after h, ih]; rfl
    · rw [taken_concat_none h, h', ih]

/-- **Exclusion.** An action fenced by `t` takes effect only if the lock was acquired with `t` and
only passive actions took effect since. -/
theorem held_since {s : S} (h0 : owner s = none) {σ : List A} {a : A} {s' : S} {t : T}
    (h : step a (run step s σ) = some s') (ht : (role a).fence = some t) :
    ∃ l₁ b l₂, taken step s σ = l₁ ++ b :: l₂ ∧ role b = .acquire t ∧
      ∀ c ∈ l₂, (role c).Passive := by
  have ho := F.fence h ht
  rw [owner_run F, h0] at ho
  exact holder_eq_some.mp ho

variable [DecidableEq T]

omit F in
/-- The action acquires the lock with `t`. -/
def acquires (role : A → Role T) (t : T) (a : A) : Bool :=
  match role a with
  | .acquire u => u = t
  | _ => false

omit F in
/-- The action releases the lock under `t`. -/
def releases (role : A → Role T) (t : T) (a : A) : Bool :=
  match role a with
  | .release u => u = t
  | _ => false

/-- **Every release has its own acquisition.** -/
theorem releases_le_acquires {s : S} (h0 : owner s = none) (t : T) (σ : List A) :
    (taken step s σ).countP (releases role t) + (if owner (run step s σ) = some t then 1 else 0) ≤
      (taken step s σ).countP (acquires role t) := by
  induction σ using List.reverseRecOn with
  | nil => simp [h0]
  | append_singleton σ a ih =>
    rw [run_concat]
    rcases next_cases step (run step s σ) a with h | ⟨h, h'⟩
    · rw [taken_concat_some h, List.countP_append, List.countP_append, F.after h]
      have hf := fun u => F.fence (t := u) h
      cases hr : role a with
      | acquire u =>
        simp only [List.countP_singleton, releases, acquires, hr, Role.after, Option.some.injEq,
          decide_eq_true_eq]
        split_ifs at ih ⊢ <;> simp_all <;> omega
      | release u =>
        have hu : owner (run step s σ) = some u := hf u (by rw [hr]; rfl)
        simp only [List.countP_singleton, releases, acquires, hr, Role.after, decide_eq_true_eq,
          hu, Option.some.injEq] at ih ⊢
        split_ifs at ih ⊢ <;> simp_all
      | revoke =>
        simp only [List.countP_singleton, releases, acquires, hr, Role.after]
        split_ifs at ih ⊢ <;> simp_all
        omega
      | use u | other =>
        simp only [List.countP_singleton, releases, acquires, hr, Role.after]
        split_ifs at ih ⊢ <;> simp_all
    · rw [taken_concat_none h, h']
      exact ih

end Runs

end FenceLock
