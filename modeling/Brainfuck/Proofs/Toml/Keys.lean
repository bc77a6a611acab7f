import Brainfuck.Proofs.Text.Scan
import Brainfuck.Toml.Document
import Mathlib

/-!
Keys in a document. No table of a document gives a key twice, at whatever depth it lies
(`Toml.parse_wellKeyed`): what adds to a table in the making adds under a key that is not there yet, or
changes what is there in its place, and an inline table is made in the same way.
-/

namespace Brainfuck.Toml

/-! ### Entries under keys -/

section Entries

variable {α : Type} {entries : List (String × α)} {key : String} {a : α}

lemma not_mem_keys_iff : key ∉ entries.map Prod.fst ↔ ∀ a, (key, a) ∉ entries := by
  simp

lemma lookup_eq_none_iff : entries.lookup key = none ↔ key ∉ entries.map Prod.fst := by
  rw [List.lookup_eq_none_iff, not_mem_keys_iff]
  constructor
  · intro h a ha
    simpa using h (key, a) ha
  · rintro h ⟨key', a⟩ ha
    rw [bne_iff_ne]
    rintro rfl
    exact h a ha

lemma mem_of_lookup (h : entries.lookup key = some a) : (key, a) ∈ entries := by
  obtain ⟨before, after, rfl, -⟩ := List.lookup_eq_some_iff.mp h
  exact List.mem_append_right _ (List.mem_cons_self ..)

/-- Where no key is given twice, what is found under a key is all that is under it. -/
lemma lookup_eq_some_iff (hnodup : (entries.map Prod.fst).Nodup) :
    entries.lookup key = some a ↔ (key, a) ∈ entries := by
  refine ⟨mem_of_lookup, fun hmem => ?_⟩
  obtain ⟨before, after, rfl⟩ := List.append_of_mem hmem
  rw [List.map_append, List.map_cons] at hnodup
  have hbefore : key ∉ before.map Prod.fst := fun h =>
    (List.nodup_append.mp hnodup).2.2 key h key (List.mem_cons_self ..) rfl
  refine List.lookup_eq_some_iff.mpr ⟨before, after, rfl, fun e he => ?_⟩
  rw [bne_iff_ne]
  exact fun heq => hbefore (heq ▸ List.mem_map_of_mem he)

end Entries

/-! ### Keys given once -/

/-- In no table of the value a key is given twice. -/
inductive Value.WellKeyed : Value → Prop
  | string (s : String) : WellKeyed (.string s)
  | integer (n : Int) : WellKeyed (.integer n)
  | float (x : Float) : WellKeyed (.float x)
  | boolean (b : Bool) : WellKeyed (.boolean b)
  | datetime : WellKeyed .datetime
  | array {items : List Value} : (∀ v ∈ items, WellKeyed v) → WellKeyed (.array items)
  | table {entries : List (String × Value)} : (entries.map Prod.fst).Nodup →
      (∀ e ∈ entries, WellKeyed e.2) → WellKeyed (.table entries)

lemma Value.wellKeyed_table_iff {entries : List (String × Value)} :
    (Value.table entries).WellKeyed ↔
      (entries.map Prod.fst).Nodup ∧ ∀ e ∈ entries, e.2.WellKeyed := by
  constructor
  · intro h
    cases h with
    | table hnodup hbelow => exact ⟨hnodup, hbelow⟩
  · rintro ⟨hnodup, hbelow⟩
    exact .table hnodup hbelow

namespace Node

/-- In no table of a part of a document a key is given twice. -/
inductive WellKeyed : Node → Prop
  | value {v : Value} : v.WellKeyed → WellKeyed (.value v)
  | table {origin : Origin} {entries : Entries} : (entries.map Prod.fst).Nodup →
      (∀ e ∈ entries, WellKeyed e.2) → WellKeyed (.table origin entries)
  | tables {elements : List Entries} : (∀ entries ∈ elements, (entries.map Prod.fst).Nodup) →
      (∀ entries ∈ elements, ∀ e ∈ entries, WellKeyed e.2) → WellKeyed (.tables elements)

/-- No key is given twice among the entries of a table in the making, nor in any table below it. -/
structure Keyed (entries : Entries) : Prop where
  nodup : (entries.map Prod.fst).Nodup
  below : ∀ e ∈ entries, e.2.WellKeyed

variable {entries entries' inner : Entries} {elements : List Entries} {origin : Origin} {node : Node}
  {key : String} {path : List String} {dotted : Bool} {v : Value}

lemma wellKeyed_table_iff : (table origin entries).WellKeyed ↔ Keyed entries := by
  constructor
  · intro h
    cases h with
    | table hnodup hbelow => exact ⟨hnodup, hbelow⟩
  · rintro ⟨hnodup, hbelow⟩
    exact .table hnodup hbelow

lemma wellKeyed_tables_iff :
    (tables elements).WellKeyed ↔ ∀ entries ∈ elements, Keyed entries := by
  constructor
  · intro h
    cases h with
    | tables hnodup hbelow => exact fun entries he => ⟨hnodup entries he, hbelow entries he⟩
  · intro h
    exact .tables (fun entries he => (h entries he).nodup) fun entries he => (h entries he).below

/-! ### Tables in the making -/

lemma keyed_nil : Keyed [] := ⟨List.nodup_nil, List.forall_mem_nil _⟩

lemma Keyed.of_lookup (h : Keyed entries) (hk : entries.lookup key = some node) :
    node.WellKeyed :=
  h.below (key, node) (mem_of_lookup hk)

/-- An entry is added at the end under a key that is not there. -/
lemma Keyed.concat (h : Keyed entries) (hk : key ∉ entries.map Prod.fst) (hnode : node.WellKeyed) :
    Keyed (entries ++ [(key, node)]) := by
  refine ⟨?_, ?_⟩
  · rw [List.map_append, List.map_singleton, ← List.concat_eq_append]
    exact h.nodup.concat hk
  · intro e he
    rcases List.mem_append.mp he with he | he
    · exact h.below e he
    · obtain rfl := List.mem_singleton.mp he
      exact hnode

lemma map_fst_replace (entries : Entries) (key : String) (node : Node) :
    (replace entries key node).map Prod.fst = entries.map Prod.fst := by
  unfold replace
  rw [List.map_map]
  refine List.map_congr_left fun e _ => ?_
  simp only [Function.comp_apply]
  split_ifs with he
  · exact he.symm
  · rfl

lemma Keyed.replace (h : Keyed entries) (hnode : node.WellKeyed) :
    Keyed (replace entries key node) := by
  refine ⟨(map_fst_replace entries key node).symm ▸ h.nodup, ?_⟩
  intro e he
  obtain ⟨e', he', rfl⟩ := List.mem_map.mp he
  split_ifs
  · exact hnode
  · exact h.below e' he'

lemma Keyed.filter (h : Keyed entries) (p : String × Node → Bool) : Keyed (entries.filter p) :=
  ⟨(List.filter_sublist.map Prod.fst).nodup h.nodup,
    fun e he => h.below e (List.mem_of_mem_filter he)⟩

/-- A change at the end of a path that gives no key twice gives none twice in the whole. -/
lemma Keyed.descend {change : Origin → Entries → Option Entries}
    (hchange : ∀ origin entries entries', Keyed entries → change origin entries = some entries' →
      Keyed entries')
    (h : Keyed entries) (hd : descend dotted change path origin entries = some entries') :
    Keyed entries' := by
  induction path generalizing origin entries entries' with
  | nil => exact hchange origin entries entries' h hd
  | cons key path ih =>
    unfold Node.descend at hd
    split at hd
    · rename_i hnone
      obtain ⟨inner, hinner, hd⟩ := Option.bind_eq_some_iff.mp hd
      cases hd
      exact h.concat (lookup_eq_none_iff.mp hnone) (wellKeyed_table_iff.mpr (ih keyed_nil hinner))
    · cases hd
    · rename_i origin' inner hsome
      split_ifs at hd
      obtain ⟨inner', hinner, hd⟩ := Option.bind_eq_some_iff.mp hd
      cases hd
      have hbefore : Keyed inner := wellKeyed_table_iff.mp (h.of_lookup hsome)
      exact h.replace (wellKeyed_table_iff.mpr (ih hbefore hinner))
    · rename_i elements hsome
      -- a path through an array of tables goes on in the last of them
      have helements := wellKeyed_tables_iff.mp (h.of_lookup hsome)
      cases hlast : elements.getLast? with
      | none =>
        rw [hlast] at hd
        cases hd
      | some last =>
        rw [hlast] at hd
        obtain ⟨last', hinner, hd⟩ := Option.bind_eq_some_iff.mp hd
        cases hd
        have hbefore : Keyed last := helements last (List.mem_of_getLast? hlast)
        refine h.replace (wellKeyed_tables_iff.mpr ?_)
        refine List.forall_mem_append.mpr ⟨?_, ?_⟩
        · exact fun es hes => helements es (List.mem_of_mem_dropLast hes)
        · exact List.forall_mem_singleton.mpr (ih hbefore hinner)

lemma Keyed.assign {key : DottedKey} (h : Keyed entries) (hv : v.WellKeyed)
    (ha : assign entries key v = some entries') : Keyed entries' := by
  refine h.descend ?_ ha
  intro origin inner inner' hinner hchange
  split_ifs at hchange with _ hpresent
  cases hchange
  have hnone := Option.not_isSome_iff_eq_none.mp hpresent
  exact hinner.concat (lookup_eq_none_iff.mp hnone) (.value hv)

lemma Keyed.assignAll {assignments : List (DottedKey × Value)} (h : Keyed entries)
    (hv : ∀ a ∈ assignments, a.2.WellKeyed) (ha : assignAll entries assignments = some entries') :
    Keyed entries' := by
  induction assignments generalizing entries with
  | nil =>
    cases ha
    exact h
  | cons a assignments ih =>
    obtain ⟨hfirst, hothers⟩ := List.forall_mem_cons.mp hv
    unfold Node.assignAll at ha
    rw [List.foldlM_cons] at ha
    obtain ⟨middle, hmiddle, ha⟩ := Option.bind_eq_some_iff.mp ha
    exact ih (h.assign hfirst hmiddle) hothers ha

lemma Keyed.addTable {key : DottedKey} {assignments : List (DottedKey × Value)} (h : Keyed entries)
    (hv : ∀ a ∈ assignments, a.2.WellKeyed)
    (ha : addTable entries key assignments = some entries') : Keyed entries' := by
  refine h.descend ?_ ha
  intro origin inner inner' hinner hchange
  have hput : ∀ start, Keyed start → (do
      let made ← Node.assignAll start assignments
      return inner.filter (·.1 ≠ key.last) ++ [(key.last, .table .header made)]) = some inner' →
      Keyed inner' := by
    intro start hstart hput
    obtain ⟨made, hassign, hput⟩ := Option.bind_eq_some_iff.mp hput
    cases hput
    refine (hinner.filter _).concat ?_ (wellKeyed_table_iff.mpr (hstart.assignAll hv hassign))
    simp
  dsimp only at hchange
  split at hchange
  · exact hput [] keyed_nil hchange
  · rename_i old hold
    exact hput old (wellKeyed_table_iff.mp (hinner.of_lookup hold)) hchange
  · cases hchange

lemma Keyed.addElement {key : DottedKey} {assignments : List (DottedKey × Value)} (h : Keyed entries)
    (hv : ∀ a ∈ assignments, a.2.WellKeyed)
    (ha : addElement entries key assignments = some entries') : Keyed entries' := by
  refine h.descend ?_ ha
  intro origin inner inner' hinner hchange
  obtain ⟨made, hmade, hchange⟩ := Option.bind_eq_some_iff.mp hchange
  have hlast : Keyed made := keyed_nil.assignAll hv hmade
  split at hchange
  · rename_i hnone
    cases hchange
    refine hinner.concat (lookup_eq_none_iff.mp hnone) (wellKeyed_tables_iff.mpr ?_)
    exact List.forall_mem_singleton.mpr hlast
  · rename_i elements hsome
    cases hchange
    refine hinner.replace (wellKeyed_tables_iff.mpr ?_)
    refine List.forall_mem_append.mpr ⟨?_, List.forall_mem_singleton.mpr hlast⟩
    exact wellKeyed_tables_iff.mp (hinner.of_lookup hsome)
  · cases hchange

/-! ### Finished tables -/

lemma entryValues_eq (entries : Entries) :
    entryValues entries = entries.map fun e => (e.1, e.2.toValue) := by
  induction entries with
  | nil => rw [entryValues, List.map_nil]
  | cons e entries ih => rw [entryValues, List.map_cons, ih]

lemma elementValues_eq (elements : List Entries) :
    elementValues elements = elements.map fun entries => .table (entryValues entries) := by
  induction elements with
  | nil => rw [elementValues, List.map_nil]
  | cons entries elements ih => rw [elementValues, List.map_cons, ih]

lemma map_fst_entryValues (entries : Entries) :
    (entryValues entries).map Prod.fst = entries.map Prod.fst := by
  rw [entryValues_eq, List.map_map]
  rfl

lemma WellKeyed.toValue (h : node.WellKeyed) : node.toValue.WellKeyed := by
  have hentries : ∀ es : Entries, (es.map Prod.fst).Nodup → (∀ e ∈ es, e.2.toValue.WellKeyed) →
      (Value.table (entryValues es)).WellKeyed := by
    intro es hnodup hbelow
    refine .table ((map_fst_entryValues es).symm ▸ hnodup) ?_
    rw [entryValues_eq]
    exact List.forall_mem_map.mpr hbelow
  induction h with
  | value hv =>
    rw [Node.toValue]
    exact hv
  | table hnodup _ ih =>
    rw [Node.toValue]
    exact hentries _ hnodup ih
  | tables hnodup _ ih =>
    rw [Node.toValue, elementValues_eq]
    refine .array (List.forall_mem_map.mpr fun es hes => ?_)
    exact hentries es (hnodup es hes) (ih es hes)

lemma Keyed.wellKeyed (h : Keyed entries) : (Value.table (entryValues entries)).WellKeyed := by
  have htable : (table .header entries).WellKeyed := wellKeyed_table_iff.mpr h
  have hvalue := htable.toValue
  rwa [toValue] at hvalue

end Node

/-! ### What is read -/

lemma ensures_bounded (negative : Bool) (n : Nat) : (bounded negative n).Ensures Value.WellKeyed := by
  have hfits : ∀ (m : Int) (c : Prop) [Decidable c],
      (if c then return .integer m else failure : Scan Value).Ensures Value.WellKeyed :=
    fun m c _ => Scan.ensures_ite (Scan.ensures_pure (.integer m)) Scan.ensures_failure
  exact Scan.ensures_ite (hfits _ _) (hfits _ _)

lemma ensures_integer : integer.Ensures Value.WellKeyed := by
  have hradix : ∀ mark base, (radix mark base).Ensures Value.WellKeyed := fun mark base =>
    Scan.ensures_bind fun _ => Scan.ensures_bind fun ds => ensures_bounded false _
  have hdecimal : decimal.Ensures Value.WellKeyed :=
    Scan.ensures_bind fun negative => Scan.ensures_bind fun ds => ensures_bounded negative _
  exact (hradix _ _).orElse ((hradix _ _).orElse ((hradix _ _).orElse hdecimal))

lemma ensures_pointed : pointed.Ensures Value.WellKeyed := by
  unfold pointed
  refine Scan.ensures_bind fun negative => Scan.ensures_bind fun whole => ?_
  refine Scan.ensures_bind fun fraction => Scan.ensures_bind fun power => ?_
  have hvalue : ∀ x : Float, (if negative then return .float (-x)
      else if x == 1.0 / 0.0 then failure
      else return .float x : Scan Value).Ensures Value.WellKeyed := fun x =>
    Scan.ensures_ite (Scan.ensures_pure (.float _))
      (Scan.ensures_ite Scan.ensures_failure (Scan.ensures_pure (.float x)))
  exact Scan.ensures_ite (Scan.ensures_bind fun _ => hvalue _) (hvalue _)

lemma ensures_number : number.Ensures Value.WellKeyed := by
  have hdatetime : datetime.Ensures Value.WellKeyed :=
    Scan.ensures_bind fun _ => Scan.ensures_pure .datetime
  have hspecial : special.Ensures Value.WellKeyed :=
    Scan.ensures_bind fun _ => Scan.ensures_bind fun _ => Scan.ensures_pure (.float _)
  exact hdatetime.orElse (ensures_pointed.orElse (hspecial.orElse ensures_integer))

section Nested

variable {value : Scan Value}

lemma ensures_assignment (h : value.Ensures Value.WellKeyed) :
    (assignment value).Ensures fun a => a.2.WellKeyed := by
  refine Scan.ensures_bind fun key => Scan.ensures_bind fun _ => Scan.ensures_bind fun _ => ?_
  exact h.bind fun v hv => Scan.ensures_pure hv

lemma ensures_items (h : value.Ensures Value.WellKeyed) : (items value).Ensures Value.WellKeyed := by
  have hitem : (gaps *> value <* gaps).Ensures Value.WellKeyed :=
    (Scan.ensures_seqRight h).seqLeft
  unfold items
  refine Scan.ensures_bind fun _ => ?_
  refine (hitem.separated (Scan.char ',')).optional?.bind fun found hfound => ?_
  have hvalue : (Value.array (found.getD [])).WellKeyed := by
    cases found with
    | none => exact .array (List.forall_mem_nil _)
    | some vs => exact .array (hfound vs rfl)
  have hclose : (do
      gaps
      Scan.char ']'
      return .array (found.getD []) : Scan Value).Ensures Value.WellKeyed :=
    Scan.ensures_bind fun _ => Scan.ensures_bind fun _ => Scan.ensures_pure hvalue
  exact Scan.ensures_ite (Scan.ensures_bind fun _ => hclose) hclose

lemma ensures_inlineTable (h : value.Ensures Value.WellKeyed) :
    (inlineTable value).Ensures Value.WellKeyed := by
  have hassign : (assignment value <* blanks).Ensures fun a => a.2.WellKeyed :=
    (ensures_assignment h).seqLeft
  unfold inlineTable
  refine (hassign.separated (Scan.char ',')).optional?.bind fun found hfound => ?_
  refine Scan.ensures_bind fun _ => Scan.ensures_bind fun _ => ?_
  have hgiven : ∀ a ∈ found.getD [], a.2.WellKeyed := by
    cases found with
    | none => exact List.forall_mem_nil _
    | some assignments => exact hfound assignments rfl
  split
  · rename_i entries hentries
    exact Scan.ensures_pure (Node.keyed_nil.assignAll hgiven hentries).wellKeyed
  · exact Scan.ensures_failure

end Nested

lemma ensures_value (depth : Nat) : (value depth).Ensures Value.WellKeyed := by
  induction depth using Nat.strongRecOn with
  | _ depth ih =>
    have hstring : (do return .string (← string) : Scan Value).Ensures Value.WellKeyed :=
      Scan.ensures_bind fun s => Scan.ensures_pure (.string s)
    unfold value
    refine Scan.ensures_bind fun next => ?_
    split
    · exact hstring
    · exact hstring
    · cases depth with
      | zero => exact Scan.ensures_failure
      | succ depth => exact Scan.ensures_bind fun _ => ensures_items (ih depth (Nat.lt_succ_self _))
    · cases depth with
      | zero => exact Scan.ensures_failure
      | succ depth =>
        exact Scan.ensures_bind fun _ => ensures_inlineTable (ih depth (Nat.lt_succ_self _))
    · exact Scan.ensures_seqRight (Scan.ensures_pure (.boolean true))
    · exact Scan.ensures_seqRight (Scan.ensures_pure (.boolean false))
    · exact ensures_number

/-- The value that a statement assigns, if it is an assignment, gives no key twice. -/
def Statement.WellKeyed : Statement → Prop
  | .assign _ v => v.WellKeyed
  | .table _ | .element _ => True

lemma ensures_header : header.Ensures Statement.WellKeyed := by
  refine Scan.ensures_bind fun _ => Scan.ensures_bind fun element => ?_
  refine Scan.ensures_bind fun key => Scan.ensures_bind fun _ => ?_
  exact Scan.ensures_ite (Scan.ensures_bind fun _ => Scan.ensures_pure trivial)
    (Scan.ensures_pure trivial)

lemma ensures_line : line.Ensures fun found => ∀ s ∈ found, s.WellKeyed := by
  have hnone : ∀ s ∈ (none : Option Statement), s.WellKeyed := fun s hs => nomatch hs
  unfold line
  refine Scan.ensures_bind fun atEnd => ?_
  refine Scan.ensures_ite (Scan.ensures_failure.bind fun _ h => False.elim h) ?_
  refine Scan.ensures_bind fun _ => Scan.ensures_bind fun next => ?_
  split
  · exact Scan.ensures_seqRight (Scan.ensures_pure hnone)
  · exact Scan.ensures_seqRight (Scan.ensures_pure hnone)
  · exact Scan.ensures_seqRight (Scan.ensures_pure hnone)
  · exact Scan.ensures_seqRight (Scan.ensures_pure hnone)
  · refine (ensures_header.imp ?_).map.seqLeft
    rintro s hs s' ⟨⟩
    exact hs
  · refine (ensures_assignment (ensures_value _)).bind fun a ha => ?_
    refine Scan.ensures_bind fun _ => Scan.ensures_pure ?_
    rintro s ⟨⟩
    exact ha

lemma wellKeyed_of_statements {text : String} {ss : List Statement} (h : statements text = some ss) :
    ∀ s ∈ ss, s.WellKeyed := by
  unfold statements at h
  dsimp only at h
  split at h
  · rename_i found hfound
    cases h
    intro s hs
    obtain ⟨found?, hmem, hs⟩ := List.mem_filterMap.mp hs
    exact ensures_line.many _ found [] hfound found? hmem s hs
  · cases h

lemma wellKeyed_leading {ss : List Statement} (h : ∀ s ∈ ss, s.WellKeyed) :
    (∀ a ∈ (leading ss).1, a.2.WellKeyed) ∧ ∀ s ∈ (leading ss).2, s.WellKeyed := by
  fun_induction leading ss with
  | case1 key v rest assignments rest' hleading ih =>
    obtain ⟨hv, hrest⟩ := List.forall_mem_cons.mp h
    rw [hleading] at ih
    obtain ⟨hothers, hrest'⟩ := ih hrest
    exact ⟨List.forall_mem_cons.mpr ⟨hv, hothers⟩, hrest'⟩
  | case2 ss => exact ⟨List.forall_mem_nil _, h⟩

lemma keyed_sections {entries entries' : Node.Entries} {ss : List Statement}
    (hentries : Node.Keyed entries) (hss : ∀ s ∈ ss, s.WellKeyed)
    (h : sections entries ss = some entries') : Node.Keyed entries' := by
  fun_induction sections entries ss with
  | case1 entries =>
    cases h
    exact hentries
  | case2 entries key v rest ih =>
    obtain ⟨hv, hrest⟩ := List.forall_mem_cons.mp hss
    obtain ⟨made, hmade, h⟩ := Option.bind_eq_some_iff.mp h
    exact ih made (hentries.assign hv hmade) hrest h
  | case3 entries key rest _ ih =>
    obtain ⟨hassigned, hrest⟩ := wellKeyed_leading (List.forall_mem_cons.mp hss).2
    obtain ⟨made, hmade, h⟩ := Option.bind_eq_some_iff.mp h
    exact ih made (hentries.addTable hassigned hmade) hrest h
  | case4 entries key rest _ ih =>
    obtain ⟨hassigned, hrest⟩ := wellKeyed_leading (List.forall_mem_cons.mp hss).2
    obtain ⟨made, hmade, h⟩ := Option.bind_eq_some_iff.mp h
    exact ih made (hentries.addElement hassigned hmade) hrest h

/-- **No table of a document gives a key twice**, at whatever depth it lies. -/
theorem parse_wellKeyed {text : String} {entries : List (String × Value)}
    (h : parse text = some entries) : (Value.table entries).WellKeyed := by
  obtain ⟨ss, hss, h⟩ := Option.bind_eq_some_iff.mp h
  obtain ⟨made, hmade, h⟩ := Option.bind_eq_some_iff.mp h
  cases h
  exact (keyed_sections Node.keyed_nil (wellKeyed_of_statements hss) hmade).wellKeyed

end Brainfuck.Toml
