import Brainfuck.Proofs.Run.Session

/-!
A run that goes along with another one, instruction by instruction or with some left out
(`Accompanies`). The states of the two are related; an instruction that the second run leaves out keeps
the relation, and not infinitely many are left out in a row, as a measure goes down with each. The
second run then ends iff the first one does, and their ends are related (`Accompanies.ends`,
`Accompanies.exists_ends`); so it is for the runs of a session (`Accompanies.session`).

Where the state of the second run is a function of that of the first one, the second one is said to
follow it (`Follows`): its sessions are those of the other machine, mapped (`Follows.session_iff`).
-/

namespace Brainfuck

/-- What a run has come to, state and outcome mapped. -/
def Progress.map (F : Run → Run) (G : Outcome → Outcome) : Progress → Progress
  | .running r => .running (F r)
  | .ended r o => .ended (F r) (G o)

/-- Two runs have come to related states, or both to their ends, which are related. -/
inductive Progress.Matches (R : Run → Run → Prop) (E : Run × Outcome → Run × Outcome → Prop) :
    Progress → Progress → Prop
  | running {r s : Run} : R r s → Matches R E (.running r) (.running s)
  | ended {r s : Run} {o o' : Outcome} : E (r, o) (s, o') → Matches R E (.ended r o) (.ended s o')

/-- Runs that are related by `R` go along with each other until they end as `E` says. -/
structure Accompanies (R : Run → Run → Prop) (E : Run × Outcome → Run × Outcome → Prop)
    (μ : Run → Nat) : Prop where
  /-- The second run makes the next instruction of the first one too, or leaves it out. -/
  advance : ∀ r s, R r s → Progress.Matches R E r.advance s.advance ∨
    ∃ r', r.advance = .running r' ∧ R r' s ∧ μ r' < μ r

namespace Accompanies

variable {R : Run → Run → Prop} {E : Run × Outcome → Run × Outcome → Prop} {μ : Run → Nat}
  {r r' s s' : Run} {o o' : Outcome}

/-- The second run ends when the first one does. -/
theorem ends (h : Accompanies R E μ) (hR : R r s) (he : r.Ends r' o) :
    ∃ s' o', s.Ends s' o' ∧ E (r', o) (s', o') := by
  obtain ⟨n, hn⟩ := he
  induction n generalizing r s with
  | zero => cases hn
  | succ n ih =>
    rcases h.advance r s hR with hadv | ⟨r₁, hr, hR₁, -⟩
    · generalize hr : r.advance = x, hs : s.advance = y at hadv
      cases hadv with
      | running hR₁ =>
        rw [Run.iterate_succ_of_running hr] at hn
        obtain ⟨s', o', hend, hE⟩ := ih hR₁ hn
        exact ⟨s', o', (Run.ends_of_running hs).mpr hend, hE⟩
      | ended hE =>
        rw [Run.iterate_succ_of_ended hr] at hn
        cases hn
        exact ⟨_, _, (Run.ends_of_ended hs).mpr ⟨rfl, rfl⟩, hE⟩
    · rw [Run.iterate_succ_of_running hr] at hn
      exact ih hR₁ hn

/-- When the second run ends, so does the first one. -/
theorem exists_ends (h : Accompanies R E μ) (hR : R r s) (he : s.Ends s' o') :
    ∃ r' o, r.Ends r' o ∧ E (r', o) (s', o') := by
  obtain ⟨n, hn⟩ := he
  induction n generalizing r s with
  | zero => cases hn
  | succ n ih =>
    -- instructions that are left out come first, as many as the measure allows
    induction hμ : μ r using Nat.strong_induction_on generalizing r with
    | _ k ihμ =>
    rcases h.advance r s hR with hadv | ⟨r₁, hr, hR₁, hlt⟩
    · generalize hr : r.advance = x, hs : s.advance = y at hadv
      cases hadv with
      | running hR₁ =>
        rw [Run.iterate_succ_of_running hs] at hn
        obtain ⟨r', o, hend, hE⟩ := ih hR₁ hn
        exact ⟨r', o, (Run.ends_of_running hr).mpr hend, hE⟩
      | ended hE =>
        rw [Run.iterate_succ_of_ended hs] at hn
        cases hn
        exact ⟨_, _, (Run.ends_of_ended hr).mpr ⟨rfl, rfl⟩, hE⟩
    · obtain ⟨r', o, hend, hE⟩ := ihμ _ (hμ ▸ hlt) hR₁ rfl
      exact ⟨r', o, (Run.ends_of_running hr).mpr hend, hE⟩

/-- **The sessions of two machines** whose runs go along with each other: each of them has one as
long as the other has, and in both the runs end as `E` says. -/
theorem session {Q : Machine → Machine → Prop} (h : Accompanies R E μ)
    (hstart : ∀ m m', Q m m' → ∀ c : Call, R (c.start m) (c.start m'))
    (hend : ∀ e e', E e e' → Q e.1.machine e'.1.machine) {m m' : Machine} (hm : Q m m')
    (calls : List Call) :
    (∀ ends, Session m calls ends →
      ∃ ends', Session m' calls ends' ∧ List.Forall₂ E ends ends') ∧
    (∀ ends', Session m' calls ends' →
      ∃ ends, Session m calls ends ∧ List.Forall₂ E ends ends') := by
  induction calls generalizing m m' with
  | nil =>
    constructor
    · intro ends hs
      cases hs
      exact ⟨[], .nil m', .nil⟩
    · intro ends' hs
      cases hs
      exact ⟨[], .nil m, .nil⟩
  | cons c calls ih =>
    constructor
    · intro ends hs
      cases hs with
      | cons he hs =>
        obtain ⟨s, o', hs', hE⟩ := h.ends (hstart m m' hm c) he
        obtain ⟨ends', hends, hall⟩ := (ih (hend _ _ hE)).1 _ hs
        exact ⟨(s, o') :: ends', .cons hs' hends, .cons hE hall⟩
    · intro ends' hs
      cases hs with
      | cons he hs =>
        obtain ⟨r, o, hr, hE⟩ := h.exists_ends (hstart m m' hm c) he
        obtain ⟨ends, hends, hall⟩ := (ih (hend _ _ hE)).2 _ hs
        exact ⟨(r, o) :: ends, .cons hr hends, .cons hE hall⟩

end Accompanies

/-- The runs `F r` follow the runs `r` of the machines with `P`. -/
structure Follows (P : Machine → Prop) (φ : Machine → Machine) (F : Run → Run)
    (G : Outcome → Outcome) (μ : Machine → Nat) : Prop where
  inRange : ∀ m, P m → m.tape.InRange
  moves : ∀ m m', P m → m.Moves m' → P m'
  machine : ∀ r, (F r).machine = φ r.machine
  start : ∀ m, P m → ∀ c : Call, F (c.start m) = c.start (φ m)
  /-- An instruction is followed, or left out. -/
  advance : ∀ r, P r.machine → (F r).advance = r.advance.map F G ∨
    ∃ r', r.advance = .running r' ∧ F r' = F r ∧ μ r'.machine < μ r.machine

namespace Follows

variable {P : Machine → Prop} {φ : Machine → Machine} {F : Run → Run} {G : Outcome → Outcome}
  {μ : Machine → Nat}

/-- A follower goes along with the run that it follows. -/
lemma accompanies (h : Follows P φ F G μ) :
    Accompanies (fun r s => P r.machine ∧ s = F r)
      (fun e e' => P e.1.machine ∧ e' = e.map F G) (fun r => μ r.machine) where
  advance := by
    rintro r s ⟨hr, rfl⟩
    rcases h.advance r hr with ha | ⟨r', hr', hF, hlt⟩
    · left
      rw [ha]
      cases hadv : r.advance with
      | running r' => exact .running ⟨h.moves _ _ hr (Run.moves_of_advance hadv), rfl⟩
      | ended r' o =>
        refine .ended ⟨?_, rfl⟩
        show P r'.machine
        rwa [(Run.stops_of_advance (h.inRange _ hr) hadv).1]
    · exact Or.inr ⟨r', hr', ⟨h.moves _ _ hr (Run.moves_of_advance hr'), hF.symm⟩, hlt⟩

/-- **The sessions of the follower** are those of the other machine, mapped. -/
theorem session_iff {m : Machine} {calls : List Call} {ends' : List (Run × Outcome)}
    (h : Follows P φ F G μ) (hm : P m) : Session (φ m) calls ends' ↔
      ∃ ends, Session m calls ends ∧ ends' = ends.map (Prod.map F G) := by
  have hsession := h.accompanies.session (Q := fun m m' => P m ∧ m' = φ m) ?_ ?_ ⟨hm, rfl⟩ calls
  · -- ends that are related are determined by those of the run that is followed
    have hmap {ends ends' : List (Run × Outcome)}
        (hall : List.Forall₂ (fun e e' => P e.1.machine ∧ e' = e.map F G) ends ends') :
        ends' = ends.map (Prod.map F G) := by
      rw [← List.forall₂_eq_eq_eq, List.forall₂_map_right_iff]
      exact List.Forall₂.flip (hall.imp fun e e' he => he.2)
    constructor
    · intro hs
      obtain ⟨ends, hends, hall⟩ := hsession.2 _ hs
      exact ⟨ends, hends, hmap hall⟩
    · rintro ⟨ends, hs, rfl⟩
      obtain ⟨ends', hends, hall⟩ := hsession.1 _ hs
      exact hmap hall ▸ hends
  · rintro m _ ⟨hm, rfl⟩ c
    exact ⟨hm, (h.start m hm c).symm⟩
  · rintro e _ ⟨he, rfl⟩
    exact ⟨he, h.machine e.1⟩

end Follows

end Brainfuck
