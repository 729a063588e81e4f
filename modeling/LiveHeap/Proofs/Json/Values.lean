import LiveHeap.Json.Reader
import LiveHeap.Proofs.Json.Scalars

/-!
# Written values are read back

A compact text has no blanks between its tokens, so a reader finds each element
of a list or object where the writer put it.  The lemmas on elements are for any
reader that reads single elements back (`ReadsBack`).  By induction on how deep
a value nests, whole values are read back if they fit into the room that the
reader has.
-/

namespace LiveHeap.Json

/-- The text begins with a character that begins a value. -/
def Opens (text : List Char) : Prop :=
  ∃ c cs, text = c :: cs ∧ isBlank c = false ∧ c ≠ ']'

theorem skipBlanks_cons {c : Char} (hc : isBlank c = false) (cs : List Char) :
    skipBlanks (c :: cs) = c :: cs := by
  simp [skipBlanks, hc]

/-- The pieces behind the first one, each with its comma. -/
def laterPieces (pieces : List (List Char)) : List Char :=
  pieces.flatMap fun piece => ',' :: piece

theorem commaSeparated_cons (piece : List Char) (pieces : List (List Char)) :
    commaSeparated (piece :: pieces) = piece ++ laterPieces pieces := by
  induction pieces generalizing piece with
  | nil => simp [commaSeparated, laterPieces]
  | cons next pieces ih =>
      rw [commaSeparated, ih, laterPieces, laterPieces, List.flatMap_cons]
      · rfl
      · exact List.cons_ne_nil next pieces

theorem delimited_laterPieces {rest : List Char} (hrest : Delimited rest)
    (pieces : List (List Char)) :
    Delimited (laterPieces pieces ++ rest) := by
  cases pieces with
  | nil => exact hrest
  | cons piece pieces => exact delimited_comma _

theorem length_le_laterPieces (pieces : List (List Char)) :
    pieces.length ≤ (laterPieces pieces).length := by
  induction pieces with
  | nil => exact Nat.le_refl _
  | cons piece pieces ih =>
      simp only [laterPieces, List.flatMap_cons, List.length_append,
        List.length_cons] at ih ⊢
      omega

/-- A text has room for a comma or a bracket for each of its pieces. -/
theorem length_le_commaSeparated {pieces : List (List Char)}
    (hsolid : ∀ piece ∈ pieces, piece ≠ []) :
    pieces.length ≤ (commaSeparated pieces).length := by
  cases pieces with
  | nil => exact Nat.le_refl _
  | cons piece pieces =>
      have hpiece := List.length_pos_iff.mpr (hsolid piece List.mem_cons_self)
      rw [commaSeparated_cons, List.length_append, List.length_cons]
      have hlater := length_le_laterPieces pieces
      omega

/-! ## Lists -/

theorem itemTexts_eq_map (items : List Json) :
    itemTexts items = items.map text := by
  induction items with
  | nil => rfl
  | cons item items ih => rw [itemTexts, ih]; rfl

theorem text_list_append (items : List Json) (rest : List Char) :
    text (.list items) ++ rest =
      '[' :: (commaSeparated (items.map text) ++ ']' :: rest) := by
  simp [text, itemTexts_eq_map]

theorem nextItem_first {text : List Char} (h : Opens text)
    (rest : List Char) :
    nextItem true (text ++ rest) = .ok (.element (text ++ rest)) := by
  rcases h with ⟨c, cs, rfl, hblank, hbracket⟩
  simp [nextItem, skipBlanks_cons hblank, hbracket]

theorem nextItem_later {text : List Char} (h : Opens text)
    (rest : List Char) :
    nextItem false (',' :: (text ++ rest)) = .ok (.element (text ++ rest)) := by
  rcases h with ⟨c, cs, rfl, hblank, hbracket⟩
  have hcomma : isBlank ',' = false := rfl
  simp [nextItem, skipBlanks_cons hblank, skipBlanks_cons hcomma, hbracket]

theorem inList_of_closed {α : Type} {inside : Reader α}
    {text rest : List Char} {x : α}
    (hinside : inside text = .ok (x, ']' :: rest)) :
    inList inside text = .ok (x, rest) := by
  have hclose : closeList (']' :: rest) = .ok rest := rfl
  rw [inList, hinside]
  simp only [hclose]

/-- The first field of a record that is written as a list. -/
theorem positional_first {α : Type} {reader : Reader α} {text : List Char}
    (h : Opens text) (absent : Except Cause α) (rest : List Char) :
    positional true absent reader (text ++ rest) = reader (text ++ rest) := by
  rw [positional, nextItem_first h]

theorem positional_later {α : Type} {reader : Reader α} {text : List Char}
    (h : Opens text) (absent : Except Cause α) (rest : List Char) :
    positional false absent reader (',' :: (text ++ rest)) =
      reader (text ++ rest) := by
  rw [positional, nextItem_later h]

section Items

variable {α : Type} {item : Reader α} {write : α → List Char} {xs : List α}
  {rounds : Nat} (hopens : ∀ x ∈ xs, Opens (write x))
  (hitems : ∀ x ∈ xs, ReadsBack item (write x) x)

include hopens hitems

theorem items_later (hrounds : xs.length < rounds) (rest : List Char) :
    items item rounds false (laterPieces (xs.map write) ++ ']' :: rest) =
      .ok (xs, ']' :: rest) := by
  induction xs generalizing rounds with
  | nil =>
      cases rounds with
      | zero => contradiction
      | succ rounds => rfl
  | cons x xs ih =>
      cases rounds with
      | zero => contradiction
      | succ rounds =>
          have hlater := ih (fun y hy => hopens y (List.mem_cons_of_mem x hy))
            (fun y hy => hitems y (List.mem_cons_of_mem x hy))
            (Nat.lt_of_succ_lt_succ hrounds)
          have hfirst := hitems x List.mem_cons_self _
            (delimited_laterPieces (delimited_bracket rest) (xs.map write))
          have htext : laterPieces ((x :: xs).map write) ++ ']' :: rest =
              ',' :: (write x ++ (laterPieces (xs.map write) ++
                ']' :: rest)) := by
            simp [laterPieces]
          rw [htext, items, nextItem_later (hopens x List.mem_cons_self)]
          simp [hfirst, hlater, bind, Except.bind, pure, Except.pure]

theorem items_first (hrounds : xs.length < rounds) (rest : List Char) :
    items item rounds true (commaSeparated (xs.map write) ++ ']' :: rest) =
      .ok (xs, ']' :: rest) := by
  cases rounds with
  | zero => contradiction
  | succ rounds =>
      cases xs with
      | nil => rfl
      | cons x xs =>
          have hlater := items_later
            (fun y hy => hopens y (List.mem_cons_of_mem x hy))
            (fun y hy => hitems y (List.mem_cons_of_mem x hy))
            (Nat.lt_of_succ_lt_succ hrounds) rest
          have hfirst := hitems x List.mem_cons_self _
            (delimited_laterPieces (delimited_bracket rest) (xs.map write))
          rw [List.map_cons, commaSeparated_cons, List.append_assoc, items,
            nextItem_first (hopens x List.mem_cons_self)]
          simp [hfirst, hlater, bind, Except.bind, pure, Except.pure]

theorem listRest_commaSeparated (rest : List Char) :
    listRest item (commaSeparated (xs.map write) ++ ']' :: rest) =
      .ok (xs, rest) := by
  have hsolid : ∀ piece ∈ xs.map write, piece ≠ [] := by
    intro piece hpiece
    rcases List.mem_map.mp hpiece with ⟨x, hmem, rfl⟩
    rcases hopens x hmem with ⟨c, cs, hx, -⟩
    rw [hx]
    exact List.cons_ne_nil c cs
  have hrounds := length_le_commaSeparated hsolid
  rw [List.length_map] at hrounds
  have hfits : xs.length <
      (commaSeparated (xs.map write) ++ ']' :: rest).length + 1 := by
    rw [List.length_append]
    omega
  exact inList_of_closed (items_first hopens hitems hfits rest)

end Items

/-- Lists of anything that is written as JSON. -/
theorem readsBack_readList {α : Type} {item : Reader α} {toJson : α → Json}
    {xs : List α}
    (hopens : ∀ x ∈ xs, Opens (toJson x).text)
    (hitems : ∀ x ∈ xs, ReadsBack item (toJson x).text x) :
    ReadsBack (readList item) (text (.list (xs.map toJson))) xs := by
  intro rest _
  have hread := listRest_commaSeparated hopens hitems rest
  have hopen (cs : List Char) :
      readList item ('[' :: cs) = listRest item cs := rfl
  rw [text_list_append, List.map_map, hopen]
  exact hread

/-! ## Objects -/

def memberText (m : String × Json) : List Char :=
  stringText m.1 ++ ':' :: m.2.text

theorem memberTexts_eq_map (ms : List (String × Json)) :
    memberTexts ms = ms.map memberText := by
  induction ms with
  | nil => rfl
  | cons m ms ih => rw [memberTexts, ih]; rfl

theorem text_object_append (ms : List (String × Json)) (rest : List Char) :
    text (.object ms) ++ rest =
      '\x7b' :: (commaSeparated (ms.map memberText) ++ '\x7d' :: rest) := by
  simp [text, memberTexts_eq_map]

theorem inObject_of_closed {α : Type} {inside : Reader α}
    {text rest : List Char} {x : α}
    (hinside : inside text = .ok (x, '\x7d' :: rest)) :
    inObject inside text = .ok (x, rest) := by
  have hclose : closeObject ('\x7d' :: rest) = .ok rest := rfl
  rw [inObject, hinside]
  simp only [hclose]

/-- A reader of single members reads the members back, in their order. -/
inductive ReadsMembers {σ : Type} (member : σ → String → Reader σ) :
    σ → List (String × Json) → σ → Prop
  | nil {s : σ} : ReadsMembers member s [] s
  | cons {s s' s'' : σ} {key : String} {value : Json}
      {ms : List (String × Json)}
      (first : ReadsBack (member s key) (':' :: value.text) s')
      (later : ReadsMembers member s' ms s'') :
      ReadsMembers member s ((key, value) :: ms) s''

/-- A member whose key names a field that was not read before. -/
theorem readsBack_field {σ α : Type} {reader : Reader α} {text : List Char}
    {x : α} (member : σ → String → Reader σ) (s : σ) (key : String)
    (hread : ReadsBack reader text x) (set : α → σ)
    (hfield : ∀ cs, member s key cs =
      named key none reader cs >>= fun r => .ok (set r.1, r.2)) :
    ReadsBack (member s key) (':' :: text) (set x) := by
  intro rest hrest
  have hnamed : named key none reader (':' :: (text ++ rest)) =
      reader (text ++ rest) := rfl
  rw [List.cons_append, hfield, hnamed, hread rest hrest]
  rfl

section Members

variable {σ : Type} {member : σ → String → Reader σ} {s s' : σ}
  {ms : List (String × Json)} {rounds : Nat}

theorem ReadsMembers.append {s'' : σ} {ms' : List (String × Json)}
    (h : ReadsMembers member s ms s') (h' : ReadsMembers member s' ms' s'') :
    ReadsMembers member s (ms ++ ms') s'' := by
  induction h with
  | nil => exact h'
  | cons first _ ih => exact .cons first (ih h')

/-- Members that are only collected, in some state. -/
theorem readsMembers_concat (state : List (String × Json) → σ)
    {before : List (String × Json)}
    (hmembers : ∀ before, ∀ m ∈ ms, ReadsBack (member (state before) m.1)
      (':' :: m.2.text) (state (before ++ [m]))) :
    ReadsMembers member (state before) ms (state (before ++ ms)) := by
  induction ms generalizing before with
  | nil =>
      rw [List.append_nil]
      exact .nil
  | cons m ms ih =>
      rw [List.append_cons]
      exact .cons (hmembers before m List.mem_cons_self)
        (ih fun before m' hm => hmembers before m' (List.mem_cons_of_mem m hm))

theorem members_later (h : ReadsMembers member s ms s')
    (hrounds : ms.length < rounds) (rest : List Char) :
    members member rounds false s
      (laterPieces (ms.map memberText) ++ '\x7d' :: rest) =
        .ok (s', '\x7d' :: rest) := by
  induction h generalizing rounds with
  | nil =>
      cases rounds with
      | zero => contradiction
      | succ rounds => rfl
  | @cons s s' s'' key value ms hfirst _ ih =>
      cases rounds with
      | zero => contradiction
      | succ rounds =>
          have hlater := ih (Nat.lt_of_succ_lt_succ hrounds)
          have hvalue := hfirst _
            (delimited_laterPieces (delimited_brace rest) (ms.map memberText))
          have htext : laterPieces (((key, value) :: ms).map memberText) ++
              '\x7d' :: rest =
                ',' :: '"' :: (key.toList.flatMap escapedChar ++ '"' ::
                  (':' :: value.text ++ (laterPieces (ms.map memberText) ++
                    '\x7d' :: rest))) := by
            simp [laterPieces, memberText, stringText]
          have hkey (cs : List Char) :
              nextKey false (',' :: '"' :: cs) = .ok (.element cs) := rfl
          rw [htext, members, hkey]
          simp only [stringRest_flatMap, hvalue, hlater, bind, Except.bind]

theorem members_first (h : ReadsMembers member s ms s')
    (hrounds : ms.length < rounds) (rest : List Char) :
    members member rounds true s
      (commaSeparated (ms.map memberText) ++ '\x7d' :: rest) =
        .ok (s', '\x7d' :: rest) := by
  cases rounds with
  | zero => contradiction
  | succ rounds =>
      cases h with
      | nil => rfl
      | @cons s s' s'' key value ms hfirst hmembers =>
          have hlater := members_later hmembers
            (Nat.lt_of_succ_lt_succ hrounds) rest
          have hvalue := hfirst _
            (delimited_laterPieces (delimited_brace rest) (ms.map memberText))
          have htext : commaSeparated (((key, value) :: ms).map memberText) ++
              '\x7d' :: rest =
                '"' :: (key.toList.flatMap escapedChar ++ '"' ::
                  (':' :: value.text ++ (laterPieces (ms.map memberText) ++
                    '\x7d' :: rest))) := by
            rw [List.map_cons, commaSeparated_cons]
            simp [memberText, stringText]
          have hkey (cs : List Char) :
              nextKey true ('"' :: cs) = .ok (.element cs) := rfl
          rw [htext, members, hkey]
          simp only [stringRest_flatMap, hvalue, hlater, bind, Except.bind]

theorem members_commaSeparated (h : ReadsMembers member s ms s')
    (rest : List Char) :
    members member
        ((commaSeparated (ms.map memberText) ++ '\x7d' :: rest).length + 1)
        true s (commaSeparated (ms.map memberText) ++ '\x7d' :: rest) =
      .ok (s', '\x7d' :: rest) := by
  have hsolid : ∀ piece ∈ ms.map memberText, piece ≠ [] := by
    intro piece hpiece
    rcases List.mem_map.mp hpiece with ⟨m, -, rfl⟩
    exact List.cons_ne_nil _ _
  have hrounds := length_le_commaSeparated hsolid
  rw [List.length_map] at hrounds
  apply members_first h
  rw [List.length_append]
  omega

end Members

/-! ## Values -/

mutual

/-- How many lists and objects stand inside each other. -/
def nesting : Json → Nat
  | null | bool _ | number _ | string _ => 0
  | list items => nestingOfItems items + 1
  | object members => nestingOfMembers members + 1

def nestingOfItems : List Json → Nat
  | [] => 0
  | item :: items => max item.nesting (nestingOfItems items)

def nestingOfMembers : List (String × Json) → Nat
  | [] => 0
  | (_, value) :: members => max value.nesting (nestingOfMembers members)

end

theorem nestingOfItems_le {items : List Json} {room : Nat} :
    nestingOfItems items ≤ room ↔ ∀ item ∈ items, item.nesting ≤ room := by
  induction items with
  | nil => simp [nestingOfItems]
  | cons item items ih =>
      rw [nestingOfItems, Nat.max_le, ih, List.forall_mem_cons]

theorem nestingOfMembers_le {members : List (String × Json)} {room : Nat} :
    nestingOfMembers members ≤ room ↔ ∀ m ∈ members, m.2.nesting ≤ room := by
  induction members with
  | nil => simp [nestingOfMembers]
  | cons m members ih =>
      rw [nestingOfMembers, Nat.max_le, ih, List.forall_mem_cons]

theorem nesting_list_le {items : List Json} {room : Nat} :
    (list items).nesting ≤ room + 1 ↔ ∀ item ∈ items, item.nesting ≤ room := by
  rw [nesting, Nat.add_le_add_iff_right, nestingOfItems_le]

theorem nesting_object_le {members : List (String × Json)} {room : Nat} :
    (object members).nesting ≤ room + 1 ↔
      ∀ m ∈ members, m.2.nesting ≤ room := by
  rw [nesting, Nat.add_le_add_iff_right, nestingOfMembers_le]

/-- Values whose numbers are whole and not negative. -/
inductive Natural : Json → Prop
  | null : Natural .null
  | bool {b : Bool} : Natural (.bool b)
  | number {n : UInt64} : Natural (.number (.natural n))
  | string {s : String} : Natural (.string s)
  | list {items : List Json} (inside : ∀ item ∈ items, Natural item) :
      Natural (.list items)
  | object {members : List (String × Json)}
      (inside : ∀ m ∈ members, Natural m.2) : Natural (.object members)

theorem not_isBlank_of_isDigit {c : Char} (hdigit : Text.isDigit c = true) :
    isBlank c = false := by
  rw [Bool.eq_false_iff]
  intro hblank
  simp only [isBlank, Bool.or_eq_true, decide_eq_true_eq] at hblank
  rcases hblank with ((rfl | rfl) | rfl) | rfl <;> cases hdigit

theorem opens_decimal (n : Nat) : Opens (Text.decimal n) := by
  rcases Text.exists_decimal_eq_cons n with ⟨d, ds, hdecimal, hdigit⟩
  refine ⟨d, ds, hdecimal, not_isBlank_of_isDigit hdigit, ?_⟩
  rintro rfl
  cases hdigit

theorem Natural.opens {j : Json} (h : j.Natural) : Opens j.text := by
  cases h with
  | number => exact opens_decimal _
  | @bool b => cases b <;> exact ⟨_, _, rfl, rfl, by decide⟩
  | _ => exact ⟨_, _, rfl, rfl, by decide⟩

theorem readsBack_readNatural {bound : Nat} {n : UInt64} (hn : n.toNat < bound)
    (expected : String) :
    ReadsBack (readNatural bound expected) (text (.number (.natural n))) n := by
  intro rest hrest
  have hread := readsBack_natural n rest hrest
  rcases Text.exists_decimal_eq_cons n.toNat with ⟨d, ds, hdecimal, hdigit⟩
  have htext : text (.number (.natural n)) = d :: ds := by
    rw [text, JsonNumber.text, hdecimal]
  rw [htext, List.cons_append] at hread ⊢
  rw [readNatural, skipBlanks_cons (not_isBlank_of_isDigit hdigit)]
  simp [hdigit, hread, hn]

theorem readsBack_readString (s : String) :
    ReadsBack readString (text (.string s)) s := by
  intro rest _
  have hopen (cs : List Char) : readString ('"' :: cs) = stringRest cs := rfl
  rw [text_string_append, hopen, stringRest_flatMap]

/-- A value that is present, and is not taken for an absent one. -/
theorem readsBack_readNullable {α : Type} {reader : Reader α} {x : α} {c : Char}
    {cs : List Char} (hblank : isBlank c = false) (hnull : c ≠ 'n')
    (h : ReadsBack reader (c :: cs) x) :
    ReadsBack (readNullable reader) (c :: cs) (some x) := by
  intro rest hrest
  have hread := h rest hrest
  rw [List.cons_append] at hread ⊢
  rw [readNullable, skipBlanks_cons hblank]
  split
  next heq => exact absurd (List.cons.inj heq).1 hnull
  next => rw [hread]; rfl

theorem readsBack_scalar {room : Nat} {c : Char} {cs : List Char} {j : Json}
    (hblank : isBlank c = false) (hlist : c ≠ '[') (hobject : c ≠ '\x7b')
    (h : ReadsBack scalar (c :: cs) j) :
    ReadsBack (readValue room) (c :: cs) j := by
  intro rest hrest
  have hread := h rest hrest
  cases room <;>
    simpa [readValue, skipBlanks_cons hblank, hlist, hobject] using hread

/-- Reads a member of an object behind its key, and puts it behind those read
before. -/
def readMember (room : Nat) (before : List (String × Json)) (key : String) :
    Reader (List (String × Json)) := fun text => do
  let text ← colon text
  let (value, rest) ← readValue room text
  return (before ++ [(key, value)], rest)

def readMembers (room : Nat) : Reader (List (String × Json)) := fun text =>
  members (readMember room) (text.length + 1) true [] text

theorem readsBack_member {room : Nat} (before : List (String × Json))
    {m : String × Json} (h : ReadsBack (readValue room) m.2.text m.2) :
    ReadsBack (readMember room before m.1) (':' :: m.2.text)
      (before ++ [m]) := by
  intro rest hrest
  have hcolon (cs : List Char) : readMember room before m.1 (':' :: cs) =
      readValue room cs >>= fun r => .ok (before ++ [(m.1, r.1)], r.2) := rfl
  rw [List.cons_append, hcolon, h rest hrest]
  rfl

/-- A value is read back by a reader that has the room it needs. -/
theorem Natural.readsBack {room : Nat} {j : Json} (h : j.Natural)
    (hroom : j.nesting ≤ room) : ReadsBack (readValue room) j.text j := by
  induction h generalizing room with
  | null => exact readsBack_scalar rfl (by decide) (by decide) readsBack_null
  | @bool b =>
      have hread := readsBack_bool b
      cases b <;> exact readsBack_scalar rfl (by decide) (by decide) hread
  | @number n =>
      have hread := readsBack_natural n
      rcases Text.exists_decimal_eq_cons n.toNat with ⟨d, ds, hdecimal, hdigit⟩
      have htext : text (.number (.natural n)) = d :: ds := by
        rw [text, JsonNumber.text, hdecimal]
      rw [htext] at hread ⊢
      have hbracket : d ≠ '[' ∧ d ≠ '\x7b' := by
        constructor <;> rintro rfl <;> cases hdigit
      exact readsBack_scalar (not_isBlank_of_isDigit hdigit) hbracket.1
        hbracket.2 hread
  | @string s =>
      exact readsBack_scalar rfl (by decide) (by decide) (readsBack_string s)
  | @list items hinside ih =>
      rcases room with _ | room
      · cases hroom
      rw [nesting_list_le] at hroom
      intro rest _
      have hread := listRest_commaSeparated (fun j hj => (hinside j hj).opens)
        (fun j hj => ih j hj (hroom j hj)) rest
      have hlist (cs : List Char) : readValue (room + 1) ('[' :: cs) =
          listRest (readValue room) cs >>= fun r => .ok (.list r.1, r.2) := rfl
      rw [text_list_append, hlist, hread]
      rfl
  | @object members hinside ih =>
      rcases room with _ | room
      · cases hroom
      rw [nesting_object_le] at hroom
      intro rest _
      have hmembers : ReadsMembers (readMember room) [] members
          ([] ++ members) :=
        readsMembers_concat id fun before m hm =>
          readsBack_member before (ih m hm (hroom m hm))
      have hread : readMembers room (commaSeparated (members.map memberText) ++
          '\x7d' :: rest) = .ok (members, '\x7d' :: rest) :=
        members_commaSeparated hmembers rest
      have hobject (cs : List Char) : readValue (room + 1) ('\x7b' :: cs) =
          inObject (readMembers room) cs >>=
            fun r => .ok (.object r.1, r.2) := rfl
      rw [text_object_append, hobject, inObject_of_closed hread]
      rfl

end LiveHeap.Json
