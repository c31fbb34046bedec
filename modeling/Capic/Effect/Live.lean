import Capic.Effect.Monitor

/-!
# One program against a world that moves

A `Live` world answers the calls of one program, and moves by itself between any two of them.
`Live.Plays` is what the world does along the trace of a run. The phases of a monitor go along
with the program, so that what the world may do can depend on how far the program has got.

`Live.Plays.sound` is the proof rule. The phases say what is known about the world: if each
answered call and each move of the world keeps `R`, then at the end of a run `R` holds, of the
phase for which `wp` promises its postcondition.
-/

namespace Capic.Effect

open Go

variable {ι : Type} {ω : ι → Type} {σ α : Type}

/-- A world for one program (module doc). -/
structure Live (M : Monitor ι ω) where
  World : Type
  exec : World → (c : ι) → ω c → World → Prop
  env : M.Phase → World → World → Prop

namespace Live

variable {M : Monitor ι ω} {L : Live M}

/-- The world along a trace. -/
inductive Plays (L : Live M) : M.Phase → L.World → List (Event ι ω) → L.World → Prop where
  | nil {q : M.Phase} {w : L.World} : Plays L q w [] w
  | call {q : M.Phase} {w w' w'' : L.World} {e : Event ι ω} {tr : List (Event ι ω)} :
      L.exec w e.call e.answer w' → Plays L (M.next q e.call e.answer) w' tr w'' →
      Plays L q w (e :: tr) w''
  | env {q : M.Phase} {w w' w'' : L.World} {tr : List (Event ι ω)} :
      L.env q w w' → Plays L q w' tr w'' → Plays L q w tr w''

section

variable (R : M.Phase → L.World → Prop)
  (hcall : ∀ q w c a w', R q w → M.ok q c → L.exec w c a w' → M.adm q c a ∧ R (M.next q c a) w')
  (henv : ∀ q w w', R q w → L.env q w w' → R q w')

include hcall henv

theorem Plays.reaches {q : M.Phase} {w w' : L.World} {tr : List (Event ι ω)}
    (hplays : L.Plays q w tr w') : ∀ {p p' : Prog ι ω α} {Q : M.Phase → α → Prop},
    p.Reaches tr p' → p.wp M Q q → R q w → p'.wp M Q (M.after q tr) ∧ R (M.after q tr) w' := by
  induction hplays with
  | nil =>
    intro p p' Q hr hwp hR
    cases hr
    exact ⟨hwp, hR⟩
  | call hexec _ ih =>
    intro p p' Q hr hwp hR
    cases hr with
    | step hr =>
      obtain ⟨hadm, hR'⟩ := hcall _ _ _ _ _ hR hwp.1 hexec
      exact ih hr (hwp.2 _ hadm) hR'
  | env hmove _ ih => exact fun hr hwp hR => ih hr hwp (henv _ _ _ hR hmove)

/-- What is known at the end of a run (module doc). -/
theorem Plays.sound {q : M.Phase} {w w' : L.World} {tr : List (Event ι ω)} {p : Go ι ω σ α}
    {Q : M.Phase → α → σ → Prop} {s s' : σ} {b : α} (hplays : L.Plays q w tr w')
    (hruns : Runs p s tr (.val b) s') (hwp : p.wp M Q q s) (hR : R q w) :
    Q (M.after q tr) b s' ∧ R (M.after q tr) w' := by
  unfold Go.wp at hwp
  exact hplays.reaches R hcall henv hruns hwp hR

end

end Live

end Capic.Effect
