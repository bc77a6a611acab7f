import Brainfuck.Limits.Resolve
import Brainfuck.Proofs.Toml.Keys

/-!
What a document says about the limits. Only its entry `interpreter` counts, which is a table or an array
(`Limits.Means`). A table may set nothing but the two limits; an array gives them by their place, and what
stands behind them does not matter. In every other case there is an entry, the first in the order of the
document, that does not fit, and the error is about that one (`Limits.FirstMisfit`).

Tables give no key twice, so the order of their entries has no part in what they mean, and neither has
anything outside the entry `interpreter` (`Limits.Means.of_edits`).
-/

namespace Brainfuck

/-! ### Messages -/

namespace Misfit

lemma message_negative (n : Int) :
    (negative n).message = s!"invalid value: integer `{n}`, expected usize" := by
  have hend : "`, expected " ++ Expectation.count.text = "`, expected usize" := by decide
  exact (String.append_assoc ..).trans (congrArg _ hend)

lemma message_wrongCount (v : Toml.Value) :
    (wrongType v .count).message = s!"invalid type: {v.describe}, expected usize" := by
  have hend : ", expected " ++ Expectation.count.text = ", expected usize" := by decide
  exact (String.append_assoc ..).trans (congrArg _ hend)

lemma message_wrongLimits (v : Toml.Value) :
    (wrongType v .limits).message = s!"invalid type: {v.describe}, expected struct Config" := by
  have hend : ", expected " ++ Expectation.limits.text = ", expected struct Config" := by decide
  exact (String.append_assoc ..).trans (congrArg _ hend)

end Misfit

namespace Limits

/-! ### What documents mean -/

/-- The value is a count. -/
def IsCount (v : Toml.Value) : Prop := ∃ n : Nat, v = .integer n

/-- The entry sets one of the limits. -/
def SetsLimit (e : String × Toml.Value) : Prop :=
  (e.1 = "tape_size" ∨ e.1 = "stack_depth") ∧ IsCount e.2

/-- The limit `n` is what the entries give under a key, or the default if they do not have the key. -/
def GivenUnder (entries : List (String × Toml.Value)) (key : String) (default n : Nat) : Prop :=
  (key, .integer n) ∈ entries ∨ (∀ v, (key, v) ∉ entries) ∧ n = default

/-- The limit `n` is what stands at a place of an array, or the default if nothing does. -/
def GivenAt (items : List Toml.Value) (i default n : Nat) : Prop :=
  items[i]? = some (.integer n) ∨ items[i]? = none ∧ n = default

/-- The document gives the limits. -/
inductive Means (doc : List (String × Toml.Value)) : Limits → Prop
  | absent : (∀ v, ("interpreter", v) ∉ doc) → Means doc ⟨30000, 1000⟩
  | table {entries : List (String × Toml.Value)} {l : Limits} :
      ("interpreter", .table entries) ∈ doc → (∀ e ∈ entries, SetsLimit e) →
      GivenUnder entries "tape_size" 30000 l.tapeSize →
      GivenUnder entries "stack_depth" 1000 l.stackDepth → Means doc l
  | array {items : List Toml.Value} {l : Limits} :
      ("interpreter", .array items) ∈ doc →
      GivenAt items 0 30000 l.tapeSize → GivenAt items 1 1000 l.stackDepth → Means doc l

/-- The words for a value that is no count. -/
inductive CountMisfit : Toml.Value → String → Prop
  | negative {n : Int} : n < 0 →
      CountMisfit (.integer n) s!"invalid value: integer `{n}`, expected usize"
  | wrongType {v : Toml.Value} : (∀ n, v ≠ .integer n) →
      CountMisfit v s!"invalid type: {v.describe}, expected usize"

/-- The words for an entry that sets no limit. -/
inductive EntryMisfit : String × Toml.Value → String → Prop
  | unknownKey {key : String} {v : Toml.Value} : key ≠ "tape_size" → key ≠ "stack_depth" →
      EntryMisfit (key, v) s!"unknown field `{key}`, expected `tape_size` or `stack_depth`"
  | count {key : String} {v : Toml.Value} {words : String} :
      key = "tape_size" ∨ key = "stack_depth" → CountMisfit v words → EntryMisfit (key, v) words

/-- The words for the first part of what is under `interpreter` that does not fit. A date counts as a
table with a key of its own. -/
inductive FirstMisfit : Toml.Value → String → Prop
  | entry {entries before after : List (String × Toml.Value)} {e : String × Toml.Value}
      {words : String} : entries = before ++ e :: after → (∀ e' ∈ before, SetsLimit e') →
      EntryMisfit e words → FirstMisfit (.table entries) words
  | item {items before after : List Toml.Value} {v : Toml.Value} {words : String} :
      items = before ++ v :: after → before.length < 2 → (∀ v' ∈ before, IsCount v') →
      CountMisfit v words → FirstMisfit (.array items) words
  | date : FirstMisfit .datetime
      "unknown field `$__toml_private_datetime`, expected `tape_size` or `stack_depth`"
  | value {v : Toml.Value} : (∀ entries, v ≠ .table entries) → (∀ items, v ≠ .array items) →
      v ≠ .datetime → FirstMisfit v s!"invalid type: {v.describe}, expected struct Config"

/-- A change of a document that leaves alone what its entry `interpreter` means. -/
inductive Edit : List (String × Toml.Value) → List (String × Toml.Value) → Prop
  | add (before after : List (String × Toml.Value)) {key : String} (v : Toml.Value) :
      key ≠ "interpreter" → Edit (before ++ after) (before ++ (key, v) :: after)
  | remove (before after : List (String × Toml.Value)) {key : String} (v : Toml.Value) :
      key ≠ "interpreter" → Edit (before ++ (key, v) :: after) (before ++ after)
  | change (before after : List (String × Toml.Value)) {key : String} (v v' : Toml.Value) :
      key ≠ "interpreter" → Edit (before ++ (key, v) :: after) (before ++ (key, v') :: after)
  | reorder {doc doc' : List (String × Toml.Value)} : doc.Perm doc' → Edit doc doc'
  | reorderLimits (before after : List (String × Toml.Value))
      {entries entries' : List (String × Toml.Value)} : entries.Perm entries' →
      Edit (before ++ ("interpreter", .table entries) :: after)
        (before ++ ("interpreter", .table entries') :: after)

variable {doc doc' entries : List (String × Toml.Value)} {items : List Toml.Value} {v : Toml.Value}
  {key key' : String} {l l' c : Limits} {n d : Nat} {m : Misfit} {words words' : String}

lemma eq_iff : l = c ↔ c.tapeSize = l.tapeSize ∧ c.stackDepth = l.stackDepth := by
  cases l
  cases c
  simp [eq_comm]

/-! ### Counts -/

lemma countOf_eq_ok_iff : countOf v = .ok n ↔ v = .integer n := by
  cases v with
  | integer k =>
    simp only [countOf, Toml.Value.integer.injEq]
    split_ifs with h
    · rw [Except.ok.injEq]
      omega
    · simp
      omega
  | _ => simp [countOf]

lemma countMisfit_of_countOf (h : countOf v = .error m) : CountMisfit v m.message := by
  cases v with
  | integer k =>
    simp only [countOf] at h
    split_ifs at h with hk
    cases h
    rw [Misfit.message_negative]
    exact .negative (Int.not_le.mp hk)
  | _ =>
    cases h
    rw [Misfit.message_wrongCount]
    exact .wrongType fun n hn => by cases hn

/-- A value is a count, or there are words for what it is instead. -/
lemma countOf_cases (v : Toml.Value) :
    (∃ n : Nat, v = .integer n ∧ countOf v = .ok n) ∨
    ∃ m, countOf v = .error m ∧ CountMisfit v m.message := by
  cases h : countOf v with
  | ok n => exact .inl ⟨n, countOf_eq_ok_iff.mp h, rfl⟩
  | error m => exact .inr ⟨m, rfl, countMisfit_of_countOf h⟩

lemma not_isCount_of_misfit (h : CountMisfit v words) : ¬ IsCount v := by
  rintro ⟨n, rfl⟩
  cases h with
  | negative hn => omega
  | wrongType hne => exact hne n rfl

lemma CountMisfit.unique (h : CountMisfit v words) (h' : CountMisfit v words') : words = words' := by
  cases h with
  | negative =>
    cases h' with
    | negative => rfl
    | wrongType hne => exact absurd rfl (hne _)
  | wrongType hne =>
    cases h' with
    | negative => exact absurd rfl (hne _)
    | wrongType => rfl

/-- The first element of a list that lacks a property is one element. -/
lemma eq_of_first {α : Type} {P : α → Prop} {before before' after after' : List α} {a a' : α}
    (h : before ++ a :: after = before' ++ a' :: after') (hbefore : ∀ x ∈ before, P x) (ha : ¬ P a)
    (hbefore' : ∀ x ∈ before', P x) (ha' : ¬ P a') : a = a' := by
  classical
  have hfind : (before ++ a :: after).find? (¬ P ·) = some a :=
    List.find?_eq_some_iff_append.mpr ⟨by simpa using ha, before, after, rfl, by simpa using hbefore⟩
  have hfind' : (before' ++ a' :: after').find? (¬ P ·) = some a' :=
    List.find?_eq_some_iff_append.mpr
      ⟨by simpa using ha', before', after', rfl, by simpa using hbefore'⟩
  rw [h, hfind'] at hfind
  exact (Option.some.inj hfind).symm

/-! ### Tables -/

lemma givenUnder_of_not_mem (h : key ∉ entries.map Prod.fst) :
    GivenUnder entries key d n ↔ n = d := by
  simp [GivenUnder, Toml.not_mem_keys_iff.mp h]

lemma givenUnder_cons_of_ne (h : key' ≠ key) :
    GivenUnder ((key', v) :: entries) key d n ↔ GivenUnder entries key d n := by
  simp [GivenUnder, h.symm]

lemma givenUnder_cons_self {k : Nat} (h : key ∉ entries.map Prod.fst) :
    GivenUnder ((key, .integer k) :: entries) key d n ↔ n = k := by
  simp only [GivenUnder, List.mem_cons, Toml.not_mem_keys_iff.mp h]
  simp

/-- An entry of a table sets its limit, or there are words for what is wrong with it. -/
lemma withEntry_cases (l : Limits) (key : String) (v : Toml.Value) :
    (∃ n : Nat, key = "tape_size" ∧ v = .integer n ∧
      l.withEntry key v = .ok { l with tapeSize := n }) ∨
    (∃ n : Nat, key = "stack_depth" ∧ v = .integer n ∧
      l.withEntry key v = .ok { l with stackDepth := n }) ∨
    ∃ m, l.withEntry key v = .error m ∧ EntryMisfit (key, v) m.message := by
  unfold withEntry
  split_ifs with htape hstack
  · obtain ⟨n, hv, hcount⟩ | ⟨m, hcount, hwords⟩ := countOf_cases v
    · exact .inl ⟨n, htape, hv, by rw [hcount]; rfl⟩
    · exact .inr (.inr ⟨m, by rw [hcount]; rfl, .count (.inl htape) hwords⟩)
  · obtain ⟨n, hv, hcount⟩ | ⟨m, hcount, hwords⟩ := countOf_cases v
    · exact .inr (.inl ⟨n, hstack, hv, by rw [hcount]; rfl⟩)
    · exact .inr (.inr ⟨m, by rw [hcount]; rfl, .count (.inr hstack) hwords⟩)
  · exact .inr (.inr ⟨.unknownKey key, rfl, .unknownKey htape hstack⟩)

lemma not_setsLimit_of_misfit {e : String × Toml.Value} (h : EntryMisfit e words) :
    ¬ SetsLimit e := by
  rintro ⟨hkey, hcount⟩
  cases h with
  | unknownKey htape hstack => exact hkey.elim htape hstack
  | count _ hwords => exact not_isCount_of_misfit hwords hcount

lemma EntryMisfit.unique {e : String × Toml.Value} (h : EntryMisfit e words)
    (h' : EntryMisfit e words') : words = words' := by
  cases h with
  | unknownKey htape hstack =>
    cases h' with
    | unknownKey => rfl
    | count hkey => exact absurd hkey (not_or.mpr ⟨htape, hstack⟩)
  | count hkey hcount =>
    cases h' with
    | unknownKey htape hstack => exact absurd hkey (not_or.mpr ⟨htape, hstack⟩)
    | count _ hcount' => exact hcount.unique hcount'

lemma withEntries_cons (l : Limits) (key : String) (v : Toml.Value)
    (entries : List (String × Toml.Value)) :
    l.withEntries ((key, v) :: entries) = (l.withEntry key v).bind (·.withEntries entries) :=
  rfl

/-- Entries that set limits give those that they set. -/
lemma withEntries_eq_ok_iff (hnodup : (entries.map Prod.fst).Nodup) :
    l.withEntries entries = .ok c ↔ (∀ e ∈ entries, SetsLimit e) ∧
      GivenUnder entries "tape_size" l.tapeSize c.tapeSize ∧
      GivenUnder entries "stack_depth" l.stackDepth c.stackDepth := by
  induction entries generalizing l with
  | nil =>
    simp only [withEntries, Except.ok.injEq]
    rw [givenUnder_of_not_mem (by simp), givenUnder_of_not_mem (by simp), eq_iff]
    simp
  | cons e entries ih =>
    obtain ⟨key, v⟩ := e
    -- the key does not come again, so the limit that it sets is left alone by the rest
    obtain ⟨hkey, hrest⟩ := List.nodup_cons.mp hnodup
    rw [withEntries_cons, List.forall_mem_cons]
    obtain ⟨n, rfl, rfl, hentry⟩ | ⟨n, rfl, rfl, hentry⟩ | ⟨m, hentry, hwords⟩ :=
      withEntry_cases l key v
    · have hsets : SetsLimit ("tape_size", .integer n) := ⟨.inl rfl, n, rfl⟩
      rw [hentry, Except.bind, ih hrest, givenUnder_cons_self hkey, givenUnder_of_not_mem hkey,
        givenUnder_cons_of_ne (by decide)]
      simp [hsets]
    · have hsets : SetsLimit ("stack_depth", .integer n) := ⟨.inr rfl, n, rfl⟩
      rw [hentry, Except.bind, ih hrest, givenUnder_cons_self hkey, givenUnder_of_not_mem hkey,
        givenUnder_cons_of_ne (by decide)]
      simp [hsets]
    · rw [hentry]
      simp [Except.bind, not_setsLimit_of_misfit hwords]

/-- If entries give no limits, there is a first one among them that sets none. -/
lemma exists_misfit_of_withEntries (h : l.withEntries entries = .error m) :
    ∃ before e after, entries = before ++ e :: after ∧ (∀ e' ∈ before, SetsLimit e') ∧
      EntryMisfit e m.message := by
  induction entries generalizing l with
  | nil => cases h
  | cons e entries ih =>
    obtain ⟨key, v⟩ := e
    have hlater : ∀ l' : Limits, SetsLimit (key, v) → l'.withEntries entries = .error m →
        ∃ before e after, (key, v) :: entries = before ++ e :: after ∧
          (∀ e' ∈ before, SetsLimit e') ∧ EntryMisfit e m.message := by
      intro l' hsets h'
      obtain ⟨before, e, after, rfl, hbefore, hwords⟩ := ih h'
      exact ⟨(key, v) :: before, e, after, rfl, List.forall_mem_cons.mpr ⟨hsets, hbefore⟩, hwords⟩
    rw [withEntries_cons] at h
    obtain ⟨n, rfl, rfl, hentry⟩ | ⟨n, rfl, rfl, hentry⟩ | ⟨m', hentry, hwords⟩ :=
      withEntry_cases l key v
    · rw [hentry] at h
      exact hlater _ ⟨.inl rfl, n, rfl⟩ h
    · rw [hentry] at h
      exact hlater _ ⟨.inr rfl, n, rfl⟩ h
    · rw [hentry] at h
      cases h
      exact ⟨[], (key, v), entries, rfl, List.forall_mem_nil _, hwords⟩

/-! ### Arrays -/

/-- An array gives the limits by their place. -/
lemma withItems_eq_ok_iff : l.withItems items = .ok c ↔
    GivenAt items 0 l.tapeSize c.tapeSize ∧ GivenAt items 1 l.stackDepth c.stackDepth := by
  unfold GivenAt
  match items with
  | [] =>
    rw [withItems, Except.ok.injEq, eq_iff]
    simp
  | [tape] =>
    rw [withItems]
    obtain ⟨n, rfl, hcount⟩ | ⟨m, hcount, hwords⟩ := countOf_cases tape
    · rw [hcount]
      show Except.ok { l with tapeSize := n } = Except.ok c ↔ _
      rw [Except.ok.injEq, eq_iff]
      simp [eq_comm]
    · have hno : tape ≠ .integer c.tapeSize := fun h => not_isCount_of_misfit hwords ⟨_, h⟩
      rw [hcount]
      simp [bind, Except.bind, hno]
  | tape :: stack :: _ =>
    rw [withItems]
    obtain ⟨n, rfl, hcount⟩ | ⟨m, hcount, hwords⟩ := countOf_cases tape
    · obtain ⟨k, rfl, hcount'⟩ | ⟨m, hcount', hwords⟩ := countOf_cases stack
      · rw [hcount, hcount']
        show Except.ok ⟨n, k⟩ = Except.ok c ↔ _
        rw [Except.ok.injEq, eq_iff]
        simp [eq_comm]
      · have hno : stack ≠ .integer c.stackDepth := fun h => not_isCount_of_misfit hwords ⟨_, h⟩
        rw [hcount, hcount']
        simp [bind, Except.bind, hno]
    · have hno : tape ≠ .integer c.tapeSize := fun h => not_isCount_of_misfit hwords ⟨_, h⟩
      rw [hcount]
      simp [bind, Except.bind, hno]

/-- If an array gives no limits, the first of its first two items that is no count is to blame. -/
lemma exists_misfit_of_withItems (h : l.withItems items = .error m) :
    ∃ before v after, items = before ++ v :: after ∧ before.length < 2 ∧
      (∀ v' ∈ before, IsCount v') ∧ CountMisfit v m.message := by
  match items with
  | [] => cases h
  | [tape] =>
    obtain ⟨n, rfl, hcount⟩ | ⟨m', hcount, hwords⟩ := countOf_cases tape
    · rw [withItems, hcount] at h
      cases h
    · rw [withItems, hcount] at h
      cases h
      exact ⟨[], tape, [], rfl, Nat.two_pos, List.forall_mem_nil _, hwords⟩
  | tape :: stack :: rest =>
    obtain ⟨n, rfl, hcount⟩ | ⟨m', hcount, hwords⟩ := countOf_cases tape
    · obtain ⟨k, rfl, hcount'⟩ | ⟨m', hcount', hwords⟩ := countOf_cases stack
      · rw [withItems, hcount, hcount'] at h
        cases h
      · rw [withItems, hcount, hcount'] at h
        cases h
        exact ⟨[.integer n], stack, rest, rfl, Nat.one_lt_two,
          List.forall_mem_singleton.mpr ⟨n, rfl⟩, hwords⟩
    · rw [withItems, hcount] at h
      cases h
      exact ⟨[], tape, stack :: rest, rfl, Nat.two_pos, List.forall_mem_nil _, hwords⟩

/-! ### Documents -/

/-- A document gives the limits that it means, and no others. -/
lemma ofDocument_eq_ok_iff (hdoc : (Toml.Value.table doc).WellKeyed) :
    ofDocument doc = .ok c ↔ Means doc c := by
  obtain ⟨hnodup, hbelow⟩ := Toml.Value.wellKeyed_table_iff.mp hdoc
  unfold ofDocument entryName
  constructor
  · intro h
    cases hlookup : doc.lookup "interpreter" with
    | none =>
      rw [hlookup] at h
      cases h
      exact .absent (Toml.not_mem_keys_iff.mp (Toml.lookup_eq_none_iff.mp hlookup))
    | some v =>
      rw [hlookup] at h
      have hmem := Toml.mem_of_lookup hlookup
      cases v with
      | table entries =>
        obtain ⟨hkeys, -⟩ := Toml.Value.wellKeyed_table_iff.mp (hbelow _ hmem)
        obtain ⟨hsets, htape, hstack⟩ := (withEntries_eq_ok_iff hkeys).mp h
        exact .table hmem hsets htape hstack
      | array items =>
        obtain ⟨htape, hstack⟩ := withItems_eq_ok_iff.mp h
        exact .array hmem htape hstack
      | _ => cases h
  · intro h
    cases h with
    | absent hnone =>
      rw [Toml.lookup_eq_none_iff.mpr (Toml.not_mem_keys_iff.mpr hnone)]
    | table hmem hsets htape hstack =>
      obtain ⟨hkeys, -⟩ := Toml.Value.wellKeyed_table_iff.mp (hbelow _ hmem)
      rw [(Toml.lookup_eq_some_iff hnodup).mpr hmem]
      exact (withEntries_eq_ok_iff hkeys).mpr ⟨hsets, htape, hstack⟩
    | array hmem htape hstack =>
      rw [(Toml.lookup_eq_some_iff hnodup).mpr hmem]
      exact withItems_eq_ok_iff.mpr ⟨htape, hstack⟩

/-- There are no two first parts that do not fit. -/
lemma FirstMisfit.unique (h : FirstMisfit v words) (h' : FirstMisfit v words') : words = words' := by
  cases h with
  | entry heq hbefore hwords =>
    cases h' with
    | entry heq' hbefore' hwords' =>
      obtain rfl := eq_of_first (heq.symm.trans heq') hbefore (not_setsLimit_of_misfit hwords)
        hbefore' (not_setsLimit_of_misfit hwords')
      exact hwords.unique hwords'
    | value htable => exact absurd rfl (htable _)
  | item heq _ hbefore hwords =>
    cases h' with
    | item heq' _ hbefore' hwords' =>
      obtain rfl := eq_of_first (heq.symm.trans heq') hbefore (not_isCount_of_misfit hwords)
        hbefore' (not_isCount_of_misfit hwords')
      exact hwords.unique hwords'
    | value _ harray => exact absurd rfl (harray _)
  | date =>
    cases h' with
    | date => rfl
    | value _ _ hdate => exact absurd rfl hdate
  | value htable harray hdate =>
    cases h' with
    | entry => exact absurd rfl (htable _)
    | item => exact absurd rfl (harray _)
    | date => exact absurd rfl hdate
    | value => rfl

/-- If a document gives no limits, the first part of it that does not fit is to blame. -/
lemma firstMisfit_of_ofDocument (h : ofDocument doc = .error m) :
    ∃ v, ("interpreter", v) ∈ doc ∧ FirstMisfit v m.message := by
  unfold ofDocument entryName at h
  cases hlookup : doc.lookup "interpreter" with
  | none =>
    rw [hlookup] at h
    cases h
  | some v =>
    rw [hlookup] at h
    have hmem := Toml.mem_of_lookup hlookup
    cases v with
    | table entries =>
      obtain ⟨before, e, after, heq, hbefore, hwords⟩ := exists_misfit_of_withEntries h
      exact ⟨_, hmem, .entry heq hbefore hwords⟩
    | array items =>
      obtain ⟨before, v, after, heq, hlength, hbefore, hwords⟩ := exists_misfit_of_withItems h
      exact ⟨_, hmem, .item heq hlength hbefore hwords⟩
    | datetime =>
      cases h
      exact ⟨_, hmem, .date⟩
    | _ =>
      cases h
      rw [Misfit.message_wrongLimits]
      exact ⟨_, hmem, .value nofun nofun nofun⟩

/-! ### Changes that do not matter -/

lemma Edit.symm (h : Edit doc doc') : Edit doc' doc := by
  cases h with
  | add before after v hkey => exact .remove before after v hkey
  | remove before after v hkey => exact .add before after v hkey
  | change before after v v' hkey => exact .change before after v' v hkey
  | reorder hperm => exact .reorder hperm.symm
  | reorderLimits before after hperm => exact .reorderLimits before after hperm.symm

/-- What is under `interpreter` stays there, apart from the order of the entries of a table. -/
lemma Edit.exists_mem (h : Edit doc doc') (hmem : ("interpreter", v) ∈ doc) :
    ("interpreter", v) ∈ doc' ∨ ∃ entries entries', entries.Perm entries' ∧
      v = .table entries ∧ ("interpreter", .table entries') ∈ doc' := by
  cases h with
  | add before after w hkey =>
    left
    rw [List.mem_append] at hmem
    rw [List.mem_append, List.mem_cons]
    tauto
  | remove before after w hkey =>
    left
    have hne : ("interpreter", v) ≠ (_, w) := fun h => hkey (congrArg Prod.fst h).symm
    rw [List.mem_append, List.mem_cons] at hmem
    rw [List.mem_append]
    tauto
  | change before after w w' hkey =>
    left
    have hne : ("interpreter", v) ≠ (_, w) := fun h => hkey (congrArg Prod.fst h).symm
    rw [List.mem_append, List.mem_cons] at hmem
    rw [List.mem_append, List.mem_cons]
    tauto
  | reorder hperm => exact .inl (hperm.mem_iff.mp hmem)
  | @reorderLimits before after entries entries' hperm =>
    rw [List.mem_append, List.mem_cons] at hmem
    rcases hmem with hmem | heq | hmem
    · exact .inl (List.mem_append_left _ hmem)
    · exact .inr ⟨entries, entries', hperm, congrArg Prod.snd heq, by simp⟩
    · exact .inl (List.mem_append_right _ (List.mem_cons_of_mem _ hmem))

lemma GivenUnder.perm {entries' : List (String × Toml.Value)} (h : GivenUnder entries key d n)
    (hperm : entries.Perm entries') : GivenUnder entries' key d n := by
  simpa only [GivenUnder, hperm.mem_iff] using h

/-- A change that leaves alone what is under `interpreter` leaves the limits alone. -/
lemma Means.of_edit (h : Means doc c) (hedit : Edit doc doc') : Means doc' c := by
  cases h with
  | absent hnone =>
    refine .absent fun v hv => ?_
    obtain hv | ⟨-, entries', -, -, hv⟩ := hedit.symm.exists_mem hv
    · exact hnone v hv
    · exact hnone _ hv
  | table hmem hsets htape hstack =>
    obtain hmem | ⟨entries, entries', hperm, heq, hmem⟩ := hedit.exists_mem hmem
    · exact .table hmem hsets htape hstack
    · cases heq
      refine .table hmem ?_ (htape.perm hperm) (hstack.perm hperm)
      exact fun e he => hsets e (hperm.mem_iff.mpr he)
  | array hmem htape hstack =>
    obtain hmem | ⟨entries, entries', -, heq, -⟩ := hedit.exists_mem hmem
    · exact .array hmem htape hstack
    · cases heq

lemma Means.of_edits (h : Means doc c) (hedits : Relation.ReflTransGen Edit doc doc') :
    Means doc' c := by
  induction hedits with
  | refl => exact h
  | tail _ hedit ih => exact ih.of_edit hedit

/-! ### Files -/

/-- What a file gives is decided by the document that it holds. -/
lemma load_eq {files : Files} {path : Path} {content : ByteArray} {text : String}
    (hfile : files path = .ok content) (htext : Utf8.decode? content.toList = some text)
    (hdoc : Toml.parse text = some doc) :
    (load files path).map Prod.fst = (ofDocument doc).mapError (.misfit path) := by
  unfold load
  rw [hfile]
  dsimp only
  unfold ofContent
  rw [htext]
  dsimp only
  rw [hdoc]
  dsimp only
  cases ofDocument doc <;> rfl

/-- A file gives the limits that its document means, and no others. -/
lemma load_eq_ok_iff {files : Files} {path : Path} {content : ByteArray} {text : String}
    (hfile : files path = .ok content) (htext : Utf8.decode? content.toList = some text)
    (hdoc : Toml.parse text = some doc) :
    (load files path).map Prod.fst = .ok c ↔ Means doc c := by
  rw [load_eq hfile htext hdoc, ← ofDocument_eq_ok_iff (Toml.parse_wellKeyed hdoc)]
  cases ofDocument doc with
  | ok l => simp [Except.mapError]
  | error m => simp [Except.mapError]

/-- **What a document says about the limits.** A file with a document gives limits if and only if its
document means them; if it means none, the error is about the first part that does not fit. Adding,
removing, changing or reordering anything outside `interpreter`, and reordering the entries inside it,
leaves limits that are given as they are. -/
theorem load_means (files : Files) (path : Path) {content : ByteArray} {text : String}
    (hfile : files path = .ok content) (htext : Utf8.decode? content.toList = some text)
    (hdoc : Toml.parse text = some doc) :
    (∀ l, (load files path).map Prod.fst = .ok l ↔ Means doc l) ∧
    ((∀ l, ¬ Means doc l) → ∃ v m, ("interpreter", v) ∈ doc ∧
      (load files path).map Prod.fst = .error (.misfit path m) ∧
      ∀ words, FirstMisfit v words ↔ words = m.message) ∧
    ∀ (files' : Files) (path' : Path) (content' : ByteArray) (text' : String)
      (doc' : List (String × Toml.Value)), files' path' = .ok content' →
      Utf8.decode? content'.toList = some text' → Toml.parse text' = some doc' →
      Relation.ReflTransGen Edit doc doc' → ∀ l, (load files path).map Prod.fst = .ok l →
      (load files' path').map Prod.fst = .ok l := by
  refine ⟨fun l => load_eq_ok_iff hfile htext hdoc, ?_, ?_⟩
  · intro hnone
    rw [load_eq hfile htext hdoc]
    cases hgiven : ofDocument doc with
    | ok l =>
      have hmeans := (ofDocument_eq_ok_iff (Toml.parse_wellKeyed hdoc)).mp hgiven
      exact absurd hmeans (hnone l)
    | error m =>
      obtain ⟨v, hmem, hfirst⟩ := firstMisfit_of_ofDocument hgiven
      refine ⟨v, m, hmem, rfl, fun words => ⟨fun h => h.unique hfirst, ?_⟩⟩
      rintro rfl
      exact hfirst
  · intro files' path' content' text' doc' hfile' htext' hdoc' hedits l hl
    rw [load_eq_ok_iff hfile htext hdoc] at hl
    rw [load_eq_ok_iff hfile' htext' hdoc']
    exact hl.of_edits hedits

/-- A file that gives one limit, also with a key of another program in front of it; and a file with a
limit below zero, which is reported although the key behind it is unknown. -/
theorem load_means_below_zero :
    let path : Path := .ofString "bf.toml"
    let plain : Files := fun _ => .ok "[interpreter]\nstack_depth = 8".toUTF8
    let among : Files := fun _ => .ok "a = 1\n[interpreter]\nstack_depth = 8".toUTF8
    let broken : Files := fun _ => .ok "[interpreter]\nstack_depth = -8\nfuel = 1".toUTF8
    (load plain path).map Prod.fst = .ok ⟨30000, 8⟩ ∧
    (load among path).map Prod.fst = .ok ⟨30000, 8⟩ ∧
    ∃ m, (load broken path).map Prod.fst = .error (.misfit path m) ∧
      m.message = "invalid value: integer `-8`, expected usize" := by
  intro path plain among broken
  have htext : Utf8.decode? "[interpreter]\nstack_depth = 8".toUTF8.toList =
      some "[interpreter]\nstack_depth = 8" := by decide +kernel
  have hparse : Toml.parse "[interpreter]\nstack_depth = 8" =
      some [("interpreter", .table [("stack_depth", .integer 8)])] := by cbv
  have htext' : Utf8.decode? "a = 1\n[interpreter]\nstack_depth = 8".toUTF8.toList =
      some "a = 1\n[interpreter]\nstack_depth = 8" := by decide +kernel
  have hparse' : Toml.parse "a = 1\n[interpreter]\nstack_depth = 8" =
      some [("a", .integer 1), ("interpreter", .table [("stack_depth", .integer 8)])] := by cbv
  have htext'' : Utf8.decode? "[interpreter]\nstack_depth = -8\nfuel = 1".toUTF8.toList =
      some "[interpreter]\nstack_depth = -8\nfuel = 1" := by decide +kernel
  have hparse'' : Toml.parse "[interpreter]\nstack_depth = -8\nfuel = 1" =
      some [("interpreter", .table [("stack_depth", .integer (-8)), ("fuel", .integer 1)])] := by cbv
  obtain ⟨hmeans, -, hedited⟩ := load_means plain path rfl htext hparse
  obtain ⟨-, hmisfit, -⟩ := load_means broken path rfl htext'' hparse''
  have hplain : (load plain path).map Prod.fst = .ok ⟨30000, 8⟩ := by
    refine (hmeans ⟨30000, 8⟩).mpr (.table (List.mem_singleton.mpr rfl) ?_ (.inr ?_) (.inl ?_))
    · exact List.forall_mem_singleton.mpr ⟨.inr rfl, 8, rfl⟩
    · simp
    · exact List.mem_singleton.mpr rfl
  have hnone : ∀ l, ¬ Means
      [("interpreter", .table [("stack_depth", .integer (-8)), ("fuel", .integer 1)])] l := by
    rintro l (hnone | ⟨hmem, hsets, -, -⟩ | ⟨hmem, -, -⟩)
    · exact hnone _ (List.mem_singleton.mpr rfl)
    · obtain rfl := Toml.Value.table.inj (congrArg Prod.snd (List.mem_singleton.mp hmem))
      obtain ⟨-, n, hn⟩ := hsets ("stack_depth", .integer (-8)) (List.mem_cons_self ..)
      cases hn
    · simp at hmem
  obtain ⟨v, m, hmem, herror, hwords⟩ := hmisfit hnone
  obtain rfl : v = _ := congrArg Prod.snd (List.mem_singleton.mp hmem)
  refine ⟨hplain, ?_, m, herror, ?_⟩
  · have hedit := Edit.add [] [("interpreter", .table [("stack_depth", .integer 8)])] (.integer 1)
      (show "a" ≠ "interpreter" by decide)
    exact hedited among path _ _ _ rfl htext' hparse' (.single hedit) _ hplain
  · have hfirst : FirstMisfit (.table [("stack_depth", .integer (-8)), ("fuel", .integer 1)])
        "invalid value: integer `-8`, expected usize" :=
      .entry rfl (List.forall_mem_nil _) (.count (.inr rfl) (.negative (by decide)))
    exact ((hwords _).mp hfirst).symm

end Limits

end Brainfuck
