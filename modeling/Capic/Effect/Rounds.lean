import Capic.Effect.Monitor

/-!
# Rounds

A reconciler is run again and again. One run has a specification (`Go.wp`) relative to a
monitor whose phase is the state of the world the program works on; between two runs the
world may move on by itself.

`Round` is one run and what the world does after it. `Ranked` says that a rank never grows
from round to round and that it drops in rounds of a certain kind, unless the work is done;
`Ranked.eventually` is the induction: if such rounds keep coming, the work gets done, and it
stays done.

`Within.wp_of_runs` turns knowledge about the complete runs of a function that only reads
into its specification.
-/

namespace Capic.Effect

/-! ## Rank -/

section

variable {X : Type} {R : X → X → Prop} {I Ready Done : X → Prop} {rank : X → Nat}

/-- What the rounds `R` do to states with the invariant `I`. -/
structure Ranked (R : X → X → Prop) (I Ready Done : X → Prop) (rank : X → Nat) : Prop where
  keeps {x y : X} : I x → R x y → I y
  stays {x y : X} : I x → R x y → Done x → Done y
  le {x y : X} : I x → R x y → Done y ∨ rank y ≤ rank x
  lt {x y : X} : I x → R x y → Ready x → Done y ∨ rank y < rank x

variable {f : Nat → X}

/-- The invariant holds all along. -/
theorem Ranked.inv (h : Ranked R I Ready Done rank) (hf : ∀ n, R (f n) (f (n + 1)))
    (h0 : I (f 0)) (n : Nat) : I (f n) := by
  induction n with
  | zero => exact h0
  | succ n ih => exact h.keeps ih (hf n)

/-- What is done stays done. -/
theorem Ranked.done_of_le (h : Ranked R I Ready Done rank) (hf : ∀ n, R (f n) (f (n + 1)))
    (h0 : I (f 0)) {n m : Nat} (hn : Done (f n)) (hle : n ≤ m) : Done (f m) := by
  induction hle with
  | refl => exact hn
  | @step m _ ih => exact h.stays (h.inv hf h0 m) (hf m) ih

/-- The rank does not grow, unless the work gets done. -/
theorem Ranked.le_of_le (h : Ranked R I Ready Done rank) (hf : ∀ n, R (f n) (f (n + 1)))
    (h0 : I (f 0)) {n m : Nat} (hle : n ≤ m) : Done (f m) ∨ rank (f m) ≤ rank (f n) := by
  induction hle with
  | refl => exact .inr (Nat.le_refl _)
  | @step m _ ih =>
    rcases ih with hdone | hrank
    · exact .inl (h.stays (h.inv hf h0 m) (hf m) hdone)
    · exact (h.le (h.inv hf h0 m) (hf m)).imp_right fun hle => Nat.le_trans hle hrank

/-- If rounds in which the rank drops keep coming, the work gets done and stays done. -/
theorem Ranked.eventually (h : Ranked R I Ready Done rank) (hf : ∀ n, R (f n) (f (n + 1)))
    (h0 : I (f 0)) (hfair : ∀ n, ∃ m, n ≤ m ∧ Ready (f m)) : ∃ N, ∀ n, N ≤ n → Done (f n) := by
  -- by induction on a bound of the rank, from any round on
  have hsome : ∀ bound n, rank (f n) < bound → ∃ N, Done (f N) := by
    intro bound
    induction bound with
    | zero => exact fun _ hlt => absurd hlt (Nat.not_lt_zero _)
    | succ bound ih =>
      intro n hlt
      obtain ⟨m, hle, hready⟩ := hfair n
      rcases h.le_of_le hf h0 hle with hdone | hrank
      · exact ⟨m, hdone⟩
      rcases h.lt (h.inv hf h0 m) (hf m) hready with hdone | hdrop
      · exact ⟨m + 1, hdone⟩
      · exact ih (m + 1) (by omega)
  obtain ⟨N, hN⟩ := hsome _ 0 (Nat.lt_succ_self _)
  exact ⟨N, fun n hn => h.done_of_le hf h0 hN hn⟩

/-- If the rank drops in every round, the work is done after as many rounds as the rank says. -/
theorem Ranked.within (h : Ranked R I Ready Done rank) (hf : ∀ n, R (f n) (f (n + 1)))
    (h0 : I (f 0)) (hready : ∀ n, Ready (f n)) {n : Nat} (hn : rank (f 0) < n) : Done (f n) := by
  -- after each round the work is done, or the rank has dropped once more
  have hdrop : ∀ n, Done (f n) ∨ rank (f n) + n ≤ rank (f 0) := by
    intro n
    induction n with
    | zero => exact .inr (Nat.le_refl _)
    | succ n ih =>
      rcases ih with hdone | hle
      · exact .inl (h.stays (h.inv hf h0 n) (hf n) hdone)
      · rcases h.lt (h.inv hf h0 n) (hf n) (hready n) with hdone | hlt
        · exact .inl hdone
        · exact .inr (by omega)
  rcases hdrop n with hdone | hle
  · exact hdone
  · omega

/-- Where every state has a next one, there are rounds without an end. -/
theorem exists_rounds (h : ∀ x, ∃ y, R x y) (x₀ : X) :
    ∃ f : Nat → X, f 0 = x₀ ∧ ∀ n, R (f n) (f (n + 1)) :=
  ⟨Nat.rec x₀ fun _ x => (h x).choose, rfl, fun _ => (h _).choose_spec⟩

end

variable {ι : Type} {ω : ι → Type} {α σ κ : Type} {M : Monitor ι ω}

namespace Go

/-- One run of `p` on the variables, as the world `M` answers it, and what the world does
after it. -/
def Round (M : Monitor ι ω) (p : Go ι ω σ α) (moves : M.Phase → M.Phase → Prop)
    (x y : M.Phase × σ) : Prop :=
  ∃ tr r, Runs p x.2 tr r y.2 ∧ M.Admits x.1 tr ∧ moves (M.after x.1 tr) y.1

/-- A round of a specified function in a world that knows no panic. -/
theorem Round.of_wp {p : Go ι ω σ α} {moves : M.Phase → M.Phase → Prop} {x y : M.Phase × σ}
    {Q : M.Phase → α → σ → Prop} (h : Round M p moves x y) (hwp : p.wp M Q x.1 x.2)
    (hpanic : ∀ q, ¬ M.panic q) : ∃ q a, Q q a y.2 ∧ moves q y.1 := by
  obtain ⟨tr, r, hruns, hadmits, hmoves⟩ := h
  cases r with
  | val a => exact ⟨_, a, wp_runs hwp hruns hadmits, hmoves⟩
  | panic msg => exact absurd (wp_runs_panic hwp hruns hadmits) (hpanic _)

/-- A world that can answer every call has a round from everywhere. -/
theorem exists_round (hadm : ∀ q c, ∃ a, M.adm q c a) {moves : M.Phase → M.Phase → Prop}
    (hmoves : ∀ q, ∃ q', moves q q') (p : Go ι ω σ α) (x : M.Phase × σ) :
    ∃ y, Round M p moves x y := by
  obtain ⟨tr, r, s', hruns, hadmits⟩ := exists_run hadm p x.1 x.2
  obtain ⟨q', hq'⟩ := hmoves (M.after x.1 tr)
  exact ⟨(q', s'), tr, r, hruns, hadmits, hq'⟩

/-- A function whose calls do not move the monitor meets what all its complete runs meet. -/
theorem Within.wp_of_runs {E : ι → Prop} {keep : σ → κ} {p : Go ι ω σ α} {q : M.Phase} {s : σ}
    {A : ∀ c, ω c → Prop} {Q : α → Prop} (hp : Within E keep p)
    (hE : ∀ c, E c → M.ok q c ∧ ∀ a, M.adm q c a → M.next q c a = q ∧ A c a)
    (hruns : ∀ tr r s', Runs p s tr r s' → (∀ e ∈ tr, A e.call e.answer) → ∃ b, r = .val b ∧ Q b) :
    p.wp M (fun q' b s' => q' = q ∧ keep s' = keep s ∧ Q b) q s := by
  unfold Within at hp
  unfold Runs at hruns
  unfold Go.wp
  have hall := hp s
  generalize p s = prog at hruns hall
  induction prog with
  | ret r =>
    obtain ⟨r, s'⟩ := r
    obtain ⟨b, rfl, hb⟩ := hruns [] r s' (.refl _) fun _ he => by cases he
    exact ⟨rfl, hall, hb⟩
  | call c k ih =>
    obtain ⟨hok, hnext⟩ := hE c hall.1
    refine ⟨hok, fun a ha => ?_⟩
    obtain ⟨hsame, hA⟩ := hnext a ha
    rw [hsame]
    refine ih a (fun tr r s' hr htr => hruns (⟨c, a⟩ :: tr) r s' (.step hr) fun e he => ?_) (hall.2 a)
    rcases List.mem_cons.mp he with rfl | he
    · exact hA
    · exact htr e he

end Go

end Capic.Effect
