import Brainfuck.Proofs.Brackets.Partner

/-!
The search for a partner, round by round. In each round the next position in the direction of the search
is looked up, and one counter is kept for both directions: a bracket of the kind that the search began
with adds one, a bracket of the other kind takes one away, and where the counter comes to zero the
partner is found (`Program.round`).

From every start the rounds come to an end, with the answer of `Program.partner`
(`Program.searches_partner`); they go on from neighbour to neighbour, so they never look at the start
itself. `Program.partner_iff` says what the answer means.
-/

namespace Brainfuck

namespace Direction

/-- The bracket that adds to the counter. -/
def deeper : Direction → Instr
  | .forward => .loopStart
  | .backward => .loopEnd

/-- The bracket that takes from it. -/
def closer : Direction → Instr
  | .forward => .loopEnd
  | .backward => .loopStart

lemma closer_ne_deeper (d : Direction) : some d.closer ≠ some d.deeper := by
  cases d <;> simp [closer, deeper]

/-- The next position: forward it has to be in the text, backward it only has to exist. -/
def next? (d : Direction) (length i : Nat) : Option Nat :=
  match d with
  | .forward => if i + 1 < length then some (i + 1) else none
  | .backward => if i = 0 then none else some (i - 1)

/-- `j` is further on than `i`. -/
def Ahead (d : Direction) (i j : Nat) : Prop :=
  match d with
  | .forward => i < j
  | .backward => j < i

lemma ahead_of_next? {d : Direction} {length i j : Nat} (h : d.next? length i = some j) :
    d.Ahead i j := by
  unfold next? at h
  unfold Ahead
  cases d with
  | forward =>
    simp only [Option.ite_none_right_eq_some, Option.some.injEq] at h
    omega
  | backward =>
    simp only [Option.ite_none_left_eq_some, Option.some.injEq] at h
    omega

lemma Ahead.trans {d : Direction} {i j k : Nat} (h : d.Ahead i j) (h' : d.Ahead j k) :
    d.Ahead i k := by
  unfold Ahead at h h' ⊢
  cases d with
  | forward => exact Nat.lt_trans h h'
  | backward => exact Nat.lt_trans h' h

lemma Ahead.ne {d : Direction} {i j : Nat} (h : d.Ahead i j) : i ≠ j := by
  unfold Ahead at h
  cases d with
  | forward => exact Nat.ne_of_lt h
  | backward => exact Nat.ne_of_gt h

end Direction

/-- A search under way: where it is, and the counter. -/
structure Search where
  position : Nat
  depth : Int
  deriving DecidableEq, Repr

/-- What a round comes to. -/
inductive Search.Round where
  | goesOn (s : Search)
  | ends (answer : Except OutOfRange (Option Nat))

namespace Program

/-- One round of a search. -/
def round (p : Program) (d : Direction) (s : Search) : Search.Round :=
  match d.next? p.size s.position with
  | none => .ends (.ok none)
  | some i =>
    if h : i < p.bytes.size then
      if Instr.ofByte? p.bytes[i] = some d.deeper then .goesOn ⟨i, s.depth + 1⟩
      else if Instr.ofByte? p.bytes[i] = some d.closer then
        if s.depth - 1 = 0 then .ends (.ok (some i)) else .goesOn ⟨i, s.depth - 1⟩
      else .goesOn ⟨i, s.depth⟩
    else .ends (.error ⟨i, p.size⟩)

/-- From `s` on the search looks at the positions `seen`, one after another, and comes to its end with
an answer. -/
inductive Searches (p : Program) (d : Direction) :
    Search → List Nat → Except OutOfRange (Option Nat) → Prop
  | on {s s' : Search} {seen : List Nat} {answer : Except OutOfRange (Option Nat)} :
      p.round d s = .goesOn s' → Searches p d s' seen answer →
      Searches p d s (s'.position :: seen) answer
  | ends {s : Search} {answer : Except OutOfRange (Option Nat)} : p.round d s = .ends answer →
      Searches p d s (d.next? p.size s.position).toList answer

/-- The bracket at `j` is the partner of one at `start`: it is of the other kind, and what stands between
the two is balanced. -/
def IsPartner (p : Program) (start j : Nat) : Direction → Prop
  | .forward => start < j ∧ j < p.size ∧ p.bytes[j]? = some Instr.loopEnd.toByte ∧
      Balanced (p.toList.extract (start + 1) j)
  | .backward => j < start ∧ p.bytes[j]? = some Instr.loopStart.toByte ∧
      Balanced (p.toList.extract (j + 1) start)

variable {p q : Program} {d : Direction} {s s' : Search} {seen seen' : List Nat}
  {answer answer' : Except OutOfRange (Option Nat)} {i j n start : Nat}

/-! ### One round -/

lemma round_of_next?_eq_none (h : d.next? p.size s.position = none) :
    p.round d s = .ends (.ok none) := by
  rw [round, h]

lemma round_of_next? (h : d.next? p.size s.position = some i) (hi : i < p.size) :
    p.round d s =
      if p.instr? i = some d.deeper then .goesOn ⟨i, s.depth + 1⟩
      else if p.instr? i = some d.closer then
        if s.depth - 1 = 0 then .ends (.ok (some i)) else .goesOn ⟨i, s.depth - 1⟩
      else .goesOn ⟨i, s.depth⟩ := by
  have hi : i < p.bytes.size := hi
  rw [round, h, instr?_of_lt hi]
  dsimp only
  rw [dif_pos hi]

lemma round_of_size_le (h : d.next? p.size s.position = some i) (hi : p.size ≤ i) :
    p.round d s = .ends (.error ⟨i, p.size⟩) := by
  have hi : ¬ i < p.bytes.size := Nat.not_lt.mpr hi
  rw [round, h]
  dsimp only
  rw [dif_neg hi]

/-- The search is then where it has looked. -/
lemma next?_of_round (h : p.round d s = .goesOn s') :
    d.next? p.size s.position = some s'.position := by
  unfold round at h
  split at h
  · cases h
  · rename_i i hi
    split_ifs at h <;> cases h <;> exact hi

/-- A round depends on the byte that is looked at only. -/
lemma round_congr (hsize : q.size = p.size)
    (h : ∀ i, d.next? p.size s.position = some i → q.bytes[i]? = p.bytes[i]?) :
    q.round d s = p.round d s := by
  cases hn : d.next? p.size s.position with
  | none =>
    rw [round_of_next?_eq_none hn, round_of_next?_eq_none (hsize ▸ hn)]
  | some i =>
    have hbyte : q.instr? i = p.instr? i := by
      rw [instr?, instr?, h i hn]
    by_cases hi : i < p.size
    · rw [round_of_next? hn hi, round_of_next? (hsize ▸ hn) (hsize ▸ hi), hbyte]
    · have hi : p.size ≤ i := Nat.le_of_not_lt hi
      rw [round_of_size_le hn hi, round_of_size_le (hsize ▸ hn) (hsize ▸ hi), hsize]

/-! ### All rounds -/

namespace Searches

/-- A search comes to one end at most. -/
theorem unique (h : p.Searches d s seen answer) (h' : p.Searches d s seen' answer') :
    seen = seen' ∧ answer = answer' := by
  induction h generalizing seen' with
  | on hr _ ih =>
    cases h' with
    | on hr' h' =>
      rw [hr] at hr'
      cases hr'
      obtain ⟨rfl, rfl⟩ := ih h'
      exact ⟨rfl, rfl⟩
    | ends hr' =>
      rw [hr] at hr'
      cases hr'
  | ends hr =>
    cases h' with
    | on hr' =>
      rw [hr] at hr'
      cases hr'
    | ends hr' =>
      rw [hr] at hr'
      cases hr'
      exact ⟨rfl, rfl⟩

/-- **A search depends on the bytes that it looks at only.** -/
theorem congr (h : p.Searches d s seen answer) (hsize : q.size = p.size)
    (hbytes : ∀ i ∈ seen, q.bytes[i]? = p.bytes[i]?) : q.Searches d s seen answer := by
  induction h with
  | on hr _ ih =>
    have hq := round_congr hsize (s := _) (d := d) fun i hi => by
      rw [next?_of_round hr, Option.some.injEq] at hi
      subst hi
      exact hbytes _ List.mem_cons_self
    exact .on (hq.trans hr) (ih fun i hi => hbytes i (List.mem_cons_of_mem _ hi))
  | @ends s answer hr =>
    have hq := round_congr hsize (s := s) (d := d) fun i hi => hbytes i (by simp [hi])
    rw [← hsize]
    exact .ends (hq.trans hr)

/-- The search goes one way: it looks at the start never and at no position twice. -/
theorem nodup (h : p.Searches d s seen answer) : (s.position :: seen).Nodup := by
  have hpairwise : (s.position :: seen).Pairwise d.Ahead := by
    induction h with
    | @on s s' seen _ hr _ ih =>
      have hnext := Direction.ahead_of_next? (next?_of_round hr)
      refine List.pairwise_cons.mpr ⟨fun i hi => ?_, ih⟩
      rcases List.mem_cons.mp hi with rfl | hi
      · exact hnext
      · exact hnext.trans (List.rel_of_pairwise_cons ih hi)
    | @ends s _ hr =>
      refine List.pairwise_cons.mpr ⟨fun i hi => ?_, ?_⟩
      · rw [Option.mem_toList] at hi
        exact Direction.ahead_of_next? hi
      · cases d.next? p.size s.position <;> simp
  exact hpairwise.imp Direction.Ahead.ne

/-! The rounds of a search with `inner` loops inside the one that it is to leave -/

section Inner

variable {inner : Nat} (hn : d.next? p.size start = some i) (hi : i < p.size)

include hn hi

/-- One loop more is to be left. -/
lemma deeper (hb : p.instr? i = some d.deeper)
    (h : p.Searches d ⟨i, ((inner + 1 : Nat) : Int) + 1⟩ seen answer) :
    p.Searches d ⟨start, inner + 1⟩ (i :: seen) answer := by
  refine .on ?_ h
  rw [round_of_next? hn hi, if_pos hb]
  push_cast
  rfl

/-- One loop is left. -/
lemma closer (hb : p.instr? i = some d.closer)
    (h : p.Searches d ⟨i, inner + 1⟩ seen answer) :
    p.Searches d ⟨start, ((inner + 1 : Nat) : Int) + 1⟩ (i :: seen) answer := by
  have hdepth : ((inner + 1 : Nat) : Int) + 1 - 1 = inner + 1 := by
    push_cast
    omega
  refine .on ?_ h
  rw [round_of_next? hn hi, if_neg (hb ▸ d.closer_ne_deeper), if_pos hb, hdepth,
    if_neg (by omega)]

/-- The outermost loop is left. -/
lemma found (hb : p.instr? i = some d.closer) :
    p.Searches d ⟨start, ((0 : Nat) : Int) + 1⟩ [i] (.ok (some i)) := by
  have hseen : [i] = (d.next? p.size start).toList := by rw [hn, Option.toList_some]
  rw [hseen]
  refine .ends ?_
  rw [round_of_next? hn hi, if_neg (hb ▸ d.closer_ne_deeper), if_pos hb, if_pos (by simp)]

/-- The byte is no bracket. -/
lemma plain (ho : p.instr? i ≠ some d.deeper) (hc : p.instr? i ≠ some d.closer)
    (h : p.Searches d ⟨i, inner + 1⟩ seen answer) :
    p.Searches d ⟨start, inner + 1⟩ (i :: seen) answer := by
  refine .on ?_ h
  rw [round_of_next? hn hi, if_neg ho, if_neg hc]

end Inner

end Searches

/-- The rounds of the forward search. -/
lemma searches_scanForward (p : Program) (inner i : Nat) : ∀ start, start + 1 = i →
    ∃ seen, p.Searches .forward ⟨start, inner + 1⟩ seen (.ok (p.scanForward inner i)) := by
  have hnext {start i : Nat} (hi : start + 1 = i) (h : i < p.bytes.size) :
      Direction.next? .forward p.size start = some i := by
    subst hi
    exact if_pos h
  fun_induction p.scanForward inner i with
  | case1 inner i h ho ih =>
    intro start hi
    obtain ⟨seen, hs⟩ := ih i rfl
    rw [← instr?_of_lt h] at ho
    exact ⟨_, hs.deeper (hnext hi h) h ho⟩
  | case2 i h hc =>
    intro start hi
    rw [← instr?_of_lt h] at hc
    exact ⟨_, .found (hnext hi h) h hc⟩
  | case3 i h hc inner ih =>
    intro start hi
    obtain ⟨seen, hs⟩ := ih i rfl
    rw [← instr?_of_lt h] at hc
    exact ⟨_, hs.closer (hnext hi h) h hc⟩
  | case4 inner i h ho hc ih =>
    intro start hi
    obtain ⟨seen, hs⟩ := ih i rfl
    rw [← instr?_of_lt h] at ho hc
    exact ⟨_, hs.plain (hnext hi h) h ho hc⟩
  | case5 inner i h =>
    intro start hi
    subst hi
    exact ⟨_, .ends (round_of_next?_eq_none (if_neg h))⟩

/-- The rounds of the backward search, from a place in the text. -/
lemma searches_scanBackward (h : n ≤ p.size) (inner : Nat) :
    ∃ seen, p.Searches .backward ⟨n, inner + 1⟩ seen (.ok (p.scanBackward inner n)) := by
  induction n generalizing inner with
  | zero => exact ⟨_, .ends (round_of_next?_eq_none rfl)⟩
  | succ n ih =>
    have hnext : Direction.next? .backward p.size (n + 1) = some n := rfl
    have ih (inner : Nat) := ih (Nat.le_of_succ_le h) inner
    rw [scanBackward.eq_def]
    dsimp only
    rcases weight_cases (p.instr? n) with ⟨ho, -⟩ | ⟨hc, -⟩ | ⟨⟨ho, hc⟩, -⟩
    · rw [ho]
      cases inner with
      | zero => exact ⟨_, .found hnext h ho⟩
      | succ inner =>
        obtain ⟨seen, hs⟩ := ih inner
        exact ⟨_, hs.closer hnext h ho⟩
    · rw [hc]
      obtain ⟨seen, hs⟩ := ih (inner + 1)
      exact ⟨_, hs.deeper hnext h hc⟩
    · obtain ⟨seen, hs⟩ := ih inner
      have hplain := hs.plain hnext h hc ho
      refine ⟨n :: seen, ?_⟩
      convert hplain using 2
      split <;> simp_all

/-- **The search comes to its end from every start**, and its answer is the partner. -/
theorem searches_partner (p : Program) (start : Nat) (d : Direction) :
    ∃ seen, p.Searches d ⟨start, 1⟩ seen (p.partner start d) := by
  cases d with
  | forward => exact searches_scanForward p 0 (start + 1) start rfl
  | backward =>
    by_cases h : start ≤ p.size
    · rw [partner_backward_of_le h]
      exact searches_scanBackward h 0
    · have hnext : Direction.next? .backward p.size start = some (start - 1) :=
        if_neg (by omega)
      rw [partner, if_neg h]
      exact ⟨_, .ends (round_of_size_le hnext (by omega))⟩

/-! ### What the search finds -/

lemma partner_forward_iff : p.partner start .forward = .ok (some j) ↔
    p.IsPartner start j .forward := by
  rw [partner_forward, Except.ok.injEq, loopEnd?_eq_some_iff, instrAt_eq_some_iff]
  constructor
  · rintro ⟨hlt, hc, hb⟩
    obtain ⟨hj, -⟩ := Array.getElem?_eq_some_iff.mp hc
    exact ⟨hlt, hj, hc, hb⟩
  · rintro ⟨hlt, -, hc, hb⟩
    exact ⟨hlt, hc, hb⟩

lemma partner_backward_iff (h : start ≤ p.size) : p.partner start .backward = .ok (some j) ↔
    p.IsPartner start j .backward := by
  rw [partner_backward_of_le h, Except.ok.injEq, loopStart?_eq_some_iff, instrAt_eq_some_iff]
  rfl

/-- The search fails only where it would look behind the text. -/
lemma partner_eq_error_iff {e : OutOfRange} : p.partner start d = .error e ↔
    d = .backward ∧ p.size < start ∧ e = ⟨start - 1, p.size⟩ := by
  cases d with
  | forward => simp [partner_forward]
  | backward =>
    by_cases h : start ≤ p.size
    · simp [partner_backward_of_le h, Nat.not_lt.mpr h]
    · rw [partner, if_neg h]
      simp [Nat.lt_of_not_le h, eq_comm]

/-- **What a search comes to.** Forward from anywhere, and backward from any place in the text, it finds
`j` iff `j` is the partner, of which there is one at most, and it finds nothing iff there is none. From
every start it comes to its end: it looks at one position after another, at none twice and never at the
start, so its answer is the same whatever byte stands there. It fails in one case only, backward from
beyond the end of the text, and there at the position next to its start, which the text does not have. -/
theorem partner_iff (p : Program) (start : Nat) :
    (∀ d, (d = .backward → start ≤ p.size) →
      (∀ j, p.partner start d = .ok (some j) ↔ p.IsPartner start j d) ∧
      (p.partner start d = .ok none ↔ ∀ j, ¬ p.IsPartner start j d) ∧
      ∀ j j', p.IsPartner start j d → p.IsPartner start j' d → j = j') ∧
    (p.size ≤ start + 1 → p.partner start .forward = .ok none) ∧
    ∀ d, (∃ seen, p.Searches d ⟨start, 1⟩ seen (p.partner start d) ∧ start ∉ seen ∧ seen.Nodup) ∧
      (∀ q : Program, q.size = p.size → (∀ i, i ≠ start → q.bytes[i]? = p.bytes[i]?) →
        q.partner start d = p.partner start d) ∧
      ∀ e, p.partner start d = .error e ↔
        d = .backward ∧ p.size < start ∧ e = ⟨start - 1, p.size⟩ := by
  refine ⟨?_, ?_, ?_⟩
  · intro d hd
    have hsome (j : Nat) : p.partner start d = .ok (some j) ↔ p.IsPartner start j d := by
      cases d with
      | forward => exact partner_forward_iff
      | backward => exact partner_backward_iff (hd rfl)
    refine ⟨hsome, ?_, ?_⟩
    · simp only [← hsome]
      cases hp : p.partner start d with
      | error e =>
        obtain ⟨rfl, hlt, -⟩ := partner_eq_error_iff.mp hp
        exact absurd (hd rfl) (Nat.not_le.mpr hlt)
      | ok found => cases found <;> simp
    · intro j j' hj hj'
      rw [← hsome] at hj hj'
      rw [hj] at hj'
      simpa using hj'
  · intro hsize
    exact congrArg Except.ok (scanForward_of_size_le hsize)
  · intro d
    obtain ⟨seen, hs⟩ := p.searches_partner start d
    obtain ⟨hstart, hnodup⟩ := List.nodup_cons.mp hs.nodup
    refine ⟨⟨seen, hs, hstart, hnodup⟩, fun q hsize hbytes => ?_, fun e => partner_eq_error_iff⟩
    have hq := hs.congr hsize fun i hi => hbytes i fun h => hstart (h ▸ hi)
    obtain ⟨seen', hs'⟩ := q.searches_partner start d
    exact (hs'.unique hq).2

/-- From the end of `[[-]`, where no byte stands, the search finds the first `[`; from there it finds
nothing, and from one place behind the end it fails. -/
theorem partner_iff_open :
    let p : Program := .ofList [0x5b, 0x5b, 0x2d, 0x5d]
    p.IsPartner 4 0 .backward ∧ (∀ j, ¬ p.IsPartner 0 j .forward) ∧
      (∃ seen, p.Searches .backward ⟨4, 1⟩ seen (.ok (some 0)) ∧ 4 ∉ seen) ∧
      p.partner 5 .backward = .error ⟨4, 4⟩ := by
  intro p
  have hback : p.partner 4 .backward = .ok (some 0) := by decide +kernel
  have hnone : p.partner 0 .forward = .ok none := by decide +kernel
  obtain ⟨hfound, -, hsearch⟩ := p.partner_iff 4
  obtain ⟨seen, hs, hstart, -⟩ := (hsearch .backward).1
  rw [hback] at hs
  refine ⟨((hfound .backward fun _ => le_rfl).1 0).mp hback, ?_, ⟨seen, hs, hstart⟩, ?_⟩
  · exact ((p.partner_iff 0).1 .forward (by simp)).2.1.mp hnone
  · exact ((p.partner_iff 5).2.2 .backward).2.2 ⟨4, 4⟩ |>.mpr ⟨rfl, by decide, rfl⟩

end Program

end Brainfuck
