import Smbpal.Lib.Program
import Smbpal.Lib.Run

/-!
# Programs under Interference

A component that runs one program after another, over a state that others change too.

Between any two operations of the program the environment may take steps, and the
program may be stopped at any point. What the environment does to the state is the rely,
a relation that its steps keep to; what the component does is the guarantee, a relation
that each of its operations keeps to. `Vouched` computes, by recursion on the program,
that it keeps the guarantee whatever it is answered and whatever the environment did in
between, and `RelyGuarantee.guarantee` carries that over to every run: it is enough that
each program is vouched for where it begins.

## Main definitions

* `Interleaved`: The shared state, and the program that is running.
* `InterleavedStep`: A step of the component or of its environment.
* `Vouched`: Every operation of the program keeps the guarantee, under the rely.
* `RelyGuarantee`: What has to be shown of the programs and the environment.
* `advance`: The next operations of a program, answered by a function.

## Theorems

* `vouched_bind`, `vouched_then`: Sequencing.
* `vouched_mono`: Weakening what is said of the end.
* `RelyGuarantee.kept`: The invariant of a run.
* `RelyGuarantee.guarantee`: What each step of the component keeps to, in every run.
* `advance_run`: Such operations are a run.
-/

namespace Smbpal

namespace Lib

namespace Program

variable {S : Signature} {σ ε α β η : Type}

/-- What is shared, and the program that is running. -/
structure Interleaved (S : Signature) (ε α σ : Type) where
  shared : σ
  running : Option (Program S ε α)

/-- Who takes a step. -/
inductive InterleavedEvent (S : Signature) (ε α η : Type) where
  | begins (p : Program S ε α)
  | acts
  | ends
  | outside (e : η)

/-- The component begins a program, performs its next operation, or is done with it,
    wherever it is; or the environment takes a step. -/
inductive InterleavedStep (M : Machine S σ) (Starts : Program S ε α → Prop)
    (Env : σ → η → σ → Prop) (settle : σ → σ) :
    Interleaved S ε α σ → InterleavedEvent S ε α η → Interleaved S ε α σ → Prop where
  | begins {s : σ} {p : Program S ε α} (h : Starts p) :
      InterleavedStep M Starts Env settle ⟨s, none⟩ (.begins p) ⟨s, some p⟩
  | acts {s s' : σ} {op : S.Op} {next : S.Answer op → Program S ε α} {ans : S.Answer op}
      (h : M op s ans s') :
      InterleavedStep M Starts Env settle ⟨s, some (.perform op next)⟩ .acts ⟨s', some (next ans)⟩
  | ends {s : σ} {p : Program S ε α} :
      InterleavedStep M Starts Env settle ⟨s, some p⟩ .ends ⟨settle s, none⟩
  | outside {s s' : σ} {running : Option (Program S ε α)} {e : η} (h : Env s e s') :
      InterleavedStep M Starts Env settle ⟨s, running⟩ (.outside e) ⟨s', running⟩

/-- Whatever it is answered and whatever happens in between, every operation of the
    program keeps the guarantee, and `Q` holds where it ends. -/
def Vouched (M : Machine S σ) (R G : σ → σ → Prop) :
    Program S ε α → (Except ε α → σ → Prop) → σ → Prop
  | .ret a, Q, s => Q (.ok a) s
  | .raise e, Q, s => Q (.error e) s
  | .perform op next, Q, s =>
      ∀ t, R s t → ∀ ans t', M op t ans t' → G t t' ∧ Vouched M R G (next ans) Q t'

section Vouched

variable {M : Machine S σ} {R G : σ → σ → Prop} {s t : σ}

/-- The rest after a first part. -/
def vouchThen (M : Machine S σ) (R G : σ → σ → Prop) (f : α → Program S ε β)
    (Q : Except ε β → σ → Prop) : Except ε α → σ → Prop
  | .ok a, s => Vouched M R G (f a) Q s
  | .error e, s => Q (.error e) s

theorem vouched_bind (p : Program S ε α) (f : α → Program S ε β) (Q : Except ε β → σ → Prop) :
    Vouched M R G (p >>= f) Q s ↔ Vouched M R G p (vouchThen M R G f Q) s := by
  induction p generalizing s with
  | ret a => rfl
  | raise e => rfl
  | perform op next ih =>
      exact forall_congr' fun t => imp_congr_right fun _ => forall_congr' fun ans =>
        forall_congr' fun t' => imp_congr_right fun _ => and_congr_right fun _ => ih ans

/-- What holds of the end may be weakened. -/
theorem vouched_mono {p : Program S ε α} {Q Q' : Except ε α → σ → Prop}
    (h : Vouched M R G p Q s) (hQ : ∀ r s, Q r s → Q' r s) : Vouched M R G p Q' s := by
  induction p generalizing s with
  | ret a => exact hQ _ _ h
  | raise e => exact hQ _ _ h
  | perform op next ih =>
      intro t hst ans t' hM
      rcases h t hst ans t' hM with ⟨hG, hrest⟩
      exact ⟨hG, ih ans hrest⟩

/-- Sequencing. -/
theorem vouched_then {p : Program S ε α} {f : α → Program S ε β} {Q : Except ε α → σ → Prop}
    {Q' : Except ε β → σ → Prop} (h : Vouched M R G p Q s)
    (hok : ∀ a t, Q (.ok a) t → Vouched M R G (f a) Q' t)
    (herror : ∀ e t, Q (.error e) t → Q' (.error e) t) : Vouched M R G (p >>= f) Q' s := by
  rw [vouched_bind]
  refine vouched_mono h fun r t hr => ?_
  cases r with
  | ok a => exact hok a t hr
  | error e => exact herror e t hr

/-- The environment may go on before the program does. -/
theorem vouched_later (htrans : ∀ s t u, R s t → R t u → R s u) {p : Program S ε α}
    (h : Vouched M R G p (fun _ _ => True) s) (hst : R s t) :
    Vouched M R G p (fun _ _ => True) t := by
  cases p with
  | ret a => trivial
  | raise e => trivial
  | perform op next => exact fun u htu => h u (htrans _ _ _ hst htu)

end Vouched

/-- What has to be shown: the environment keeps to the rely where the guard lets it, and
    every program that begins where the invariant holds is vouched for. -/
structure RelyGuarantee (M : Machine S σ) (Starts : Program S ε α → Prop)
    (Env : σ → η → σ → Prop) (settle : σ → σ)
    (guard : Interleaved S ε α σ → InterleavedEvent S ε α η → Prop)
    (I : σ → Prop) (R G : σ → σ → Prop) : Prop where
  refl : ∀ s, R s s
  trans : ∀ s t u, R s t → R t u → R s u
  env : ∀ s p e s', I s → guard ⟨s, p⟩ (.outside e) → Env s e s' → R s s' ∧ I s'
  keeps : ∀ s s', I s → G s s' → I s'
  settles : ∀ s, I s → I (settle s)
  starts : ∀ p s, Starts p → I s → Vouched M R G p (fun _ _ => True) s

namespace RelyGuarantee

variable {M : Machine S σ} {Starts : Program S ε α → Prop} {Env : σ → η → σ → Prop}
variable {settle : σ → σ} {guard : Interleaved S ε α σ → InterleavedEvent S ε α η → Prop}
variable {I : σ → Prop} {R G : σ → σ → Prop} {s₀ : σ} {w w' : Interleaved S ε α σ}

/-- The invariant holds, and the program that is running is vouched for. -/
theorem kept (h : RelyGuarantee M Starts Env settle guard I R G) (h0 : I s₀)
    (hrun : GuardedRun (InterleavedStep M Starts Env settle) guard ⟨s₀, none⟩ w) :
    I w.shared ∧ ∀ p, w.running = some p → Vouched M R G p (fun _ _ => True) w.shared := by
  refine GuardedRun.invariant
    (fun w => I w.shared ∧ ∀ p, w.running = some p →
      Vouched M R G p (fun _ _ => True) w.shared)
    ⟨h0, fun p hp => by cases hp⟩ (fun w e w' hw hmet hstep => ?_) hrun
  rcases hw with ⟨hI, hvouched⟩
  cases hstep with
  | begins hstarts =>
      refine ⟨hI, fun p hp => ?_⟩
      cases hp
      exact h.starts _ _ hstarts hI
  -- What the program does is guaranteed, and what follows is vouched for.
  | @acts s s' op next ans hM =>
      rcases hvouched _ rfl s (h.refl s) ans s' hM with ⟨hG, hrest⟩
      refine ⟨h.keeps _ _ hI hG, fun p hp => ?_⟩
      cases hp
      exact hrest
  | ends => exact ⟨h.settles _ hI, fun p hp => nomatch hp⟩
  -- What others do is relied on, and a later promise is one from there.
  | outside henv =>
      rcases h.env _ _ _ _ hI hmet henv with ⟨hR, hI'⟩
      exact ⟨hI', fun p hp => vouched_later h.trans (hvouched p hp) hR⟩

/-- In every run each operation of the component keeps the guarantee. -/
theorem guarantee (h : RelyGuarantee M Starts Env settle guard I R G) (h0 : I s₀)
    (hrun : GuardedRun (InterleavedStep M Starts Env settle) guard ⟨s₀, none⟩ w)
    (hstep : InterleavedStep M Starts Env settle w .acts w') : G w.shared w'.shared := by
  have hvouched := (h.kept h0 hrun).2
  cases hstep with
  | @acts s s' op next ans hM => exact (hvouched _ rfl s (h.refl s) ans s' hM).1

end RelyGuarantee

section Advance

variable {M : Machine S σ} {Starts : Program S ε α → Prop} {Env : σ → η → σ → Prop}
variable {settle : σ → σ} {guard : Interleaved S ε α σ → InterleavedEvent S ε α η → Prop}
variable {answer : (op : S.Op) → σ → S.Answer op × σ} {s₀ : Interleaved S ε α σ} {s : σ}

/-- The next operations of a program, answered by a function. -/
def advance (answer : (op : S.Op) → σ → S.Answer op × σ) :
    Nat → Program S ε α → σ → Interleaved S ε α σ
  | n + 1, .perform op next, s => advance answer n (next (answer op s).1) (answer op s).2
  | _, p, s => ⟨s, some p⟩

/-- Operations answered as the machine may answer them are steps of the component. -/
theorem advance_run (hM : ∀ op s, M op s (answer op s).1 (answer op s).2)
    (hguard : ∀ w, guard w .acts) (n : Nat) {p : Program S ε α}
    (hrun : GuardedRun (InterleavedStep M Starts Env settle) guard s₀ ⟨s, some p⟩) :
    GuardedRun (InterleavedStep M Starts Env settle) guard s₀ (advance answer n p s) := by
  induction n generalizing p s with
  | zero =>
      cases p <;> exact hrun
  | succ n ih =>
      cases p with
      | ret a => exact hrun
      | raise e => exact hrun
      | perform op next => exact ih (hrun.next .acts (hguard _) (.acts (hM op s)))

/-- The next operation of a program that is not done. -/
theorem advance_acts (hM : ∀ op s, M op s (answer op s).1 (answer op s).2)
    {op : S.Op} {next : S.Answer op → Program S ε α} {w : Interleaved S ε α σ}
    (hw : w.running = some (.perform op next)) :
    InterleavedStep M Starts Env settle w .acts
      ⟨(answer op w.shared).2, some (next (answer op w.shared).1)⟩ := by
  rcases w with ⟨s, running⟩
  cases hw
  exact .acts (hM op s)

end Advance

end Program

end Lib

end Smbpal
