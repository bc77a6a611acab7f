import Brainfuck.Limits.Resolve
import Mathlib

/-!
How the limits of a run are settled. First the configuration file is loaded, which ends in one of a few
ways (`Limits.Loads`). Then what the caller gives takes the place of what was loaded, and last the bounds
are checked, on the limits as they are then (`Limits.FirstBroken`).

So a file that cannot be loaded is reported whatever the caller gives, and a value of the file in whose
place another one is given has no effect, be it within the bounds or not (`Limits.resolve_settles`).
-/

namespace Brainfuck

/-- The place of a bound in the order in which the bounds are looked at. -/
def Violation.rank : Violation → Nat
  | tapeTooSmall => 0
  | tapeTooLarge => 1
  | stackTooSmall => 2

/-- The text of a violation tells which one it is. -/
lemma Violation.text_injective : Function.Injective Violation.text := by
  intro v w h
  cases v <;> cases w <;> first | rfl | exact absurd h (by decide +kernel)

namespace Limits

variable {files : Files} {env : Environment} {x : Except LimitsError Limits} {l : Limits}
  {tapeSize stackDepth : Option Nat}

/-! ### What is loaded -/

/-- Loading the configuration file of an environment gives limits, or a reason why it gives none. -/
inductive Loads (files : Files) (env : Environment) : Except LimitsError Limits → Prop
  /-- The environment leads to no file. -/
  | nowhere : filePath? env = none → Loads files env (.ok {})
  /-- The file is not there. -/
  | missing {path : Path} {fault : Fault} : filePath? env = some path →
      files path = .error fault → fault.cause = .notFound → Loads files env (.ok {})
  /-- The file cannot be read, for another cause. -/
  | unreadable {path : Path} {fault : Fault} : filePath? env = some path →
      files path = .error fault → fault.cause ≠ .notFound →
      Loads files env (.error (.unreadable path fault))
  /-- The file is read, but its content is no text. -/
  | notText {path : Path} {content : ByteArray} : filePath? env = some path →
      files path = .ok content → Utf8.decode? content.toList = none →
      Loads files env (.error (.unreadable path .notUtf8))
  /-- The text is no document. -/
  | malformed {path : Path} {content : ByteArray} {text : String} : filePath? env = some path →
      files path = .ok content → Utf8.decode? content.toList = some text →
      Toml.parse text = none → Loads files env (.error (.malformed path))
  /-- The document gives no limits. -/
  | misfit {path : Path} {content : ByteArray} {text : String}
      {entries : List (String × Toml.Value)} {cause : Misfit} : filePath? env = some path →
      files path = .ok content → Utf8.decode? content.toList = some text →
      Toml.parse text = some entries → ofDocument entries = .error cause →
      Loads files env (.error (.misfit path cause))
  /-- The document gives limits. -/
  | given {path : Path} {content : ByteArray} {text : String}
      {entries : List (String × Toml.Value)} {l : Limits} : filePath? env = some path →
      files path = .ok content → Utf8.decode? content.toList = some text →
      Toml.parse text = some entries → ofDocument entries = .ok l → Loads files env (.ok l)

/-- The limits below those that the caller gives are those that are loaded. -/
lemma loads_base : Loads files env ((base files env).map Prod.fst) := by
  unfold base
  cases hpath : filePath? env with
  | none => exact .nowhere hpath
  | some path =>
    dsimp only
    unfold load
    cases hread : files path with
    | error fault =>
      dsimp only
      by_cases hcause : fault.cause = .notFound
      · rw [if_pos hcause]
        exact .missing hpath hread hcause
      · rw [if_neg hcause]
        exact .unreadable hpath hread hcause
    | ok content =>
      dsimp only
      unfold ofContent
      cases htext : Utf8.decode? content.toList with
      | none => exact .notText hpath hread htext
      | some text =>
        dsimp only
        cases hparse : Toml.parse text with
        | none => exact .malformed hpath hread htext hparse
        | some entries =>
          dsimp only
          cases hgiven : ofDocument entries with
          | error cause => exact .misfit hpath hread htext hparse hgiven
          | ok l => exact .given hpath hread htext hparse hgiven

/-- Nothing else is loaded. -/
lemma Loads.eq_base (h : Loads files env x) : x = (base files env).map Prod.fst := by
  unfold base
  cases h with
  | nowhere hpath => simp only [hpath]; rfl
  | missing hpath hread hcause => simp only [hpath, load, hread, hcause]; rfl
  | unreadable hpath hread hcause => simp only [hpath, load, hread, if_neg hcause]; rfl
  | notText hpath hread htext => simp only [hpath, load, hread, ofContent, htext]; rfl
  | malformed hpath hread htext hparse =>
    simp only [hpath, load, hread, ofContent, htext, hparse]; rfl
  | misfit hpath hread htext hparse hgiven =>
    simp only [hpath, load, hread, ofContent, htext, hparse, hgiven]; rfl
  | given hpath hread htext hparse hgiven =>
    simp only [hpath, load, hread, ofContent, htext, hparse, hgiven]; rfl

/-- Loading has one result. -/
lemma existsUnique_loads (files : Files) (env : Environment) : ∃! x, Loads files env x :=
  ⟨_, loads_base, fun _ h => h.eq_base⟩

/-! ### The bounds -/

/-- What the caller gives is put in the place of what was loaded. -/
lemma eq_override_iff {c : Limits} : c = l.override tapeSize stackDepth ↔
    c.tapeSize = tapeSize.getD l.tapeSize ∧ c.stackDepth = stackDepth.getD l.stackDepth := by
  constructor
  · rintro rfl
    exact ⟨rfl, rfl⟩
  · rintro ⟨htape, hstack⟩
    cases c
    exact (Limits.mk.injEq ..).mpr ⟨htape, hstack⟩

/-- The limits break a bound. -/
inductive Breaks (l : Limits) : Violation → Prop
  | tapeTooSmall : l.tapeSize < 1 → Breaks l .tapeTooSmall
  | tapeTooLarge : 2 ^ 28 < l.tapeSize → Breaks l .tapeTooLarge
  | stackTooSmall : l.stackDepth < 1 → Breaks l .stackTooSmall

/-- The limits break a bound, and none before it. -/
structure FirstBroken (l : Limits) (v : Violation) : Prop where
  breaks : l.Breaks v
  first : ∀ {w : Violation}, l.Breaks w → v.rank ≤ w.rank

/-- The bound that is reported is the first that the limits break. -/
lemma violation?_eq_some_iff {v : Violation} : l.violation? = some v ↔ l.FirstBroken v := by
  unfold violation? maxTapeSize
  constructor
  · intro h
    split_ifs at h with hzero hlarge hstack <;> cases h
    · exact ⟨.tapeTooSmall (by omega), fun _ => Nat.zero_le _⟩
    · refine ⟨.tapeTooLarge (by omega), fun hw => ?_⟩
      cases hw with
      | tapeTooSmall hw => omega
      | tapeTooLarge => exact Nat.le_refl _
      | stackTooSmall => exact Nat.le_succ _
    · refine ⟨.stackTooSmall (by omega), fun hw => ?_⟩
      cases hw with
      | tapeTooSmall hw => omega
      | tapeTooLarge hw => omega
      | stackTooSmall => exact Nat.le_refl _
  · rintro ⟨hbreaks, hfirst⟩
    cases hbreaks with
    | tapeTooSmall h => rw [if_pos (by omega)]
    | tapeTooLarge h => rw [if_neg (by omega), if_pos (by omega)]
    | stackTooSmall h =>
      have hsmall : ¬l.tapeSize < 1 := fun h' => absurd (hfirst (.tapeTooSmall h')) (by decide)
      have hlarge : ¬2 ^ 28 < l.tapeSize :=
        fun h' => absurd (hfirst (.tapeTooLarge h')) (by decide)
      rw [if_neg (by omega), if_neg (by omega), if_pos (by omega)]

/-- No bound is reported of limits that are within all of them. -/
lemma violation?_eq_none_iff :
    l.violation? = none ↔ 1 ≤ l.tapeSize ∧ l.tapeSize ≤ 2 ^ 28 ∧ 1 ≤ l.stackDepth := by
  unfold violation? maxTapeSize
  constructor
  · intro h
    split_ifs at h
    omega
  · rintro ⟨hsmall, hlarge, hstack⟩
    rw [if_neg (by omega), if_neg (by omega), if_neg (by omega)]

lemma validate_eq_ok_iff {c : Limits} : l.validate = .ok c ↔
    c = l ∧ 1 ≤ c.tapeSize ∧ c.tapeSize ≤ 2 ^ 28 ∧ 1 ≤ c.stackDepth := by
  unfold validate
  cases hv : l.violation? with
  | none =>
    constructor
    · intro h
      cases h
      exact ⟨rfl, violation?_eq_none_iff.mp hv⟩
    · rintro ⟨rfl, -⟩
      rfl
  | some v =>
    constructor
    · intro h
      cases h
    · rintro ⟨rfl, hbounds⟩
      rw [violation?_eq_none_iff.mpr hbounds] at hv
      cases hv

lemma validate_eq_error_iff {e : LimitsError} :
    l.validate = .error e ↔ ∃ v, l.FirstBroken v ∧ e = .invalid v.text := by
  simp only [← violation?_eq_some_iff]
  unfold validate
  cases l.violation? with
  | none => simp
  | some v => simp [eq_comm]

/-! ### What is settled -/

/-- What is loaded decides the rest: a reason why nothing is loaded stays as it is, and limits have what
the caller gives put in their place and are checked then. -/
lemma resolve_of_loads (h : Loads files env x) (tapeSize stackDepth : Option Nat) :
    (resolve files env tapeSize stackDepth).1 =
      x.bind fun l => (l.override tapeSize stackDepth).validate := by
  rw [h.eq_base]
  unfold resolve
  cases base files env <;> rfl

/-- Two files settle the same limits if they fail to load alike and agree where the caller gives
nothing. -/
lemma resolve_congr {files' : Files} {env' : Environment}
    (herror : ∀ e, Loads files env (.error e) ↔ Loads files' env' (.error e))
    (hok : ∀ l l', Loads files env (.ok l) → Loads files' env' (.ok l') →
      l.override tapeSize stackDepth = l'.override tapeSize stackDepth) :
    (resolve files env tapeSize stackDepth).1 = (resolve files' env' tapeSize stackDepth).1 := by
  obtain ⟨x, hx, hunique⟩ := existsUnique_loads files' env'
  obtain ⟨y, hy, -⟩ := existsUnique_loads files env
  cases y with
  | error e =>
    rw [resolve_of_loads hy, resolve_of_loads ((herror e).mp hy)]
  | ok l =>
    cases x with
    | error e => cases hy.eq_base.trans ((herror e).mpr hx).eq_base.symm
    | ok l' =>
      rw [resolve_of_loads hy, resolve_of_loads hx]
      exact congrArg validate (hok l l' hy hx)

/-- A bound that is reported is broken by the limits with what the caller gives put in their place. -/
lemma breaks_of_resolve {v : Violation}
    (h : (resolve files env tapeSize stackDepth).1 = .error (.invalid v.text)) :
    ∃ l, Loads files env (.ok l) ∧ (l.override tapeSize stackDepth).Breaks v := by
  obtain ⟨x, hx, -⟩ := existsUnique_loads files env
  rw [resolve_of_loads hx] at h
  cases x with
  | error e =>
    -- a file that fails to load is never reported as limits out of bounds
    cases h
    cases hx
  | ok l =>
    obtain ⟨w, hw, htext⟩ := validate_eq_error_iff.mp h
    obtain rfl : v = w := Violation.text_injective (LimitsError.invalid.inj htext)
    exact ⟨l, hx, hw.breaks⟩

/-- Limits are settled if and only if loading gives some, and these are within the bounds with what the
caller gives put in their place. A file that cannot be loaded is reported whatever the caller gives; of
limits that are out of bounds the first bound that they break is reported, and never one that a value of
the file breaks in whose place another is given. So if the caller gives both limits, the file matters only
if it cannot be loaded. -/
theorem resolve_settles (files : Files) (env : Environment) (tapeSize stackDepth : Option Nat) :
    (∃! x, Loads files env x) ∧
    (∀ c, (resolve files env tapeSize stackDepth).1 = .ok c ↔ ∃ l, Loads files env (.ok l) ∧
      c.tapeSize = tapeSize.getD l.tapeSize ∧ c.stackDepth = stackDepth.getD l.stackDepth ∧
      1 ≤ c.tapeSize ∧ c.tapeSize ≤ 2 ^ 28 ∧ 1 ≤ c.stackDepth) ∧
    (∀ e, Loads files env (.error e) → (resolve files env tapeSize stackDepth).1 = .error e) ∧
    (∀ l c : Limits, Loads files env (.ok l) →
      c.tapeSize = tapeSize.getD l.tapeSize → c.stackDepth = stackDepth.getD l.stackDepth →
      ∀ e, (resolve files env tapeSize stackDepth).1 = .error e ↔
        ∃ v, c.FirstBroken v ∧ e = .invalid v.text) ∧
    (∀ n, tapeSize = some n → 1 ≤ n → n ≤ 2 ^ 28 →
      (resolve files env tapeSize stackDepth).1 ≠ .error (.invalid Violation.tapeTooSmall.text) ∧
      (resolve files env tapeSize stackDepth).1 ≠ .error (.invalid Violation.tapeTooLarge.text)) ∧
    (∀ n, stackDepth = some n → 1 ≤ n →
      (resolve files env tapeSize stackDepth).1 ≠
        .error (.invalid Violation.stackTooSmall.text)) ∧
    (tapeSize.isSome → stackDepth.isSome → ∀ files' env',
      (∀ e, Loads files env (.error e) ↔ Loads files' env' (.error e)) →
      (resolve files env tapeSize stackDepth).1 = (resolve files' env' tapeSize stackDepth).1) := by
  refine ⟨existsUnique_loads files env, ?_, ?_, ?_, ?_, ?_, ?_⟩
  · intro c
    constructor
    · intro h
      obtain ⟨x, hx, -⟩ := existsUnique_loads files env
      rw [resolve_of_loads hx] at h
      cases x with
      | error e => cases h
      | ok l =>
        obtain ⟨rfl, hbounds⟩ := validate_eq_ok_iff.mp h
        exact ⟨l, hx, rfl, rfl, hbounds⟩
    · rintro ⟨l, hl, htape, hstack, hbounds⟩
      rw [resolve_of_loads hl]
      apply validate_eq_ok_iff.mpr
      exact ⟨eq_override_iff.mpr ⟨htape, hstack⟩, hbounds⟩
  · intro e he
    rw [resolve_of_loads he]
    rfl
  · intro l c hl htape hstack e
    rw [resolve_of_loads hl, eq_override_iff.mpr ⟨htape, hstack⟩]
    exact validate_eq_error_iff
  · rintro n rfl hn hn'
    constructor
    · intro h
      obtain ⟨l, -, hbreaks⟩ := breaks_of_resolve h
      cases hbreaks with
      | tapeTooSmall hlt => exact absurd hn (Nat.not_le.mpr hlt)
    · intro h
      obtain ⟨l, -, hbreaks⟩ := breaks_of_resolve h
      cases hbreaks with
      | tapeTooLarge hlt => exact absurd hn' (Nat.not_le.mpr hlt)
  · rintro n rfl hn h
    obtain ⟨l, -, hbreaks⟩ := breaks_of_resolve h
    cases hbreaks with
    | stackTooSmall hlt => exact absurd hn (Nat.not_le.mpr hlt)
  · intro htape hstack files' env' herror
    obtain ⟨n, rfl⟩ := Option.isSome_iff_exists.mp htape
    obtain ⟨d, rfl⟩ := Option.isSome_iff_exists.mp hstack
    exact resolve_congr herror fun _ _ _ _ => rfl

/-- A file that asks for a tape without cells: by itself it is refused, and with a tape that is given
only its stack counts. A file that is no document is refused even if both limits are given. -/
theorem resolve_settles_empty_tape :
    let env : Environment := [("HOME", [0x2f])]
    let files : Files := fun _ => .ok "interpreter = [0, 8]".toUTF8
    let torn : Files := fun _ => .ok "interpreter = [0, 8".toUTF8
    (resolve files env none none).1 = .error (.invalid "tape_size must be at least 1") ∧
      (resolve files env (some 10) none).1 = .ok ⟨10, 8⟩ ∧
      (resolve torn env (some 10) (some 8)).1 =
        .error (.malformed ⟨Utf8.encode "/.config/bf.toml"⟩) := by
  intro env files torn
  have hpath : filePath? env = some ⟨Utf8.encode "/.config/bf.toml"⟩ := by decide +kernel
  have htext : Utf8.decode? "interpreter = [0, 8]".toUTF8.toList = some "interpreter = [0, 8]" := by
    decide +kernel
  have hparse : Toml.parse "interpreter = [0, 8]" =
      some [("interpreter", .array [.integer 0, .integer 8])] := by cbv
  have hfile : Loads files env (.ok ⟨0, 8⟩) := .given hpath rfl htext hparse rfl
  have htext' : Utf8.decode? "interpreter = [0, 8".toUTF8.toList = some "interpreter = [0, 8" := by
    decide +kernel
  have hparse' : Toml.parse "interpreter = [0, 8" = none := by cbv
  have htorn : Loads torn env (.error (.malformed ⟨Utf8.encode "/.config/bf.toml"⟩)) :=
    .malformed hpath rfl htext' hparse'
  obtain ⟨-, -, -, hinvalid, -⟩ := resolve_settles files env none none
  obtain ⟨-, hok, -⟩ := resolve_settles files env (some 10) none
  obtain ⟨-, -, herror, -⟩ := resolve_settles torn env (some 10) (some 8)
  refine ⟨?_, ?_, herror _ htorn⟩
  · apply (hinvalid ⟨0, 8⟩ ⟨0, 8⟩ hfile rfl rfl _).mpr
    exact ⟨.tapeTooSmall, violation?_eq_some_iff.mp rfl, rfl⟩
  · apply (hok _).mpr
    exact ⟨⟨0, 8⟩, hfile, rfl, rfl, by decide⟩

end Limits

end Brainfuck
