import QueryAdvisor.Proofs.Decoding
import QueryAdvisor.Query.Text
/-!
# Query text reads back

The text of a query model is read front to back by the streaming readers of `JsonText`, not
through a document. `ReadsBackAs read j x` says that `read` takes the compact text of `j` back
as `x` wherever it stands, and fails when `j` nests deeper than the depth it has left. It is
proved for strings, flags, unit variants, lists and records from the readers' steps, then for
each reader of a query model from those of its parts; a predicate takes its other members in as
documents and reads its fields from them, by the decoders of `Predicate`.

The main result: a query model whose literals read back is read back from the compact text of
its document exactly when that document nests less than 128 deep (`Query.read_compact_toJson_iff`).
Deeper documents are refused by the reader's depth limit, as a chain of 63 negations shows.
-/
namespace QueryAdvisor.JsonText

open Json

/-- `read` takes the compact text of `j` back as `x` wherever it stands, before an end a number
cannot run on into, when `j` nests within the depth left; and fails when `j` nests deeper. -/
def ReadsBackAs {α : Type} (read : Nat → Reader α) (j : Json) (x : α) : Prop :=
  ∀ (d : Nat) (r : List Char) (p m : Nat), 0 < d → d ≤ 128 → NumEnd r →
    p + bytes ((compact j).toList ++ r) ≤ m →
    Outcome (j.nesting < d) (fun y => y = (x, ⟨r, p + bytes (compact j).toList, m⟩))
      (read d ⟨(compact j).toList ++ r, p, m⟩)

theorem ReadsBackAs.map {α β : Type} {read : Nat → Reader α} {j : Json} {x : α} (h : ReadsBackAs read j x)
    (f : α → β) : ReadsBackAs (fun d => Reader.map f (read d)) j (f x) := by
  intro d r p m hd hd' hr hfit
  rcases (h d r p m hd hd' hr hfit).cases with ⟨hf, y, hres, rfl⟩ | ⟨hf, e, hres⟩
  · exact Outcome.of_ok (by simp [Reader.map, hres]) hf rfl
  · exact Outcome.of_error (e := e) (by simp [Reader.map, hres]) hf

theorem quote_append (s : String) (r : List Char) :
    (quote s).toList ++ r = '"' :: (escaped s.toList ++ '"' :: r) := by
  simp [quote_toList]

theorem blanks_quote (s : String) (r : List Char) (p m : Nat) :
    (Cursor.mk ('"' :: (escaped s.toList ++ '"' :: r)) p m).blanks = ⟨'"' :: (escaped s.toList ++ '"' :: r), p, m⟩ :=
  blanks_of_head (by simp [IsBlank])

theorem string_readsBackAs (s : String) : ReadsBackAs (fun _ => string) (.string s) s := by
  intro d r p m hd _ _ hfit
  have hs := string_quote s r p m hfit
  refine Outcome.of_ok ?_ (by simp [nesting]; omega) rfl
  simp only [compact]
  rw [quote_append] at hs ⊢
  simp only [string, blanks_quote, hs]
  rfl

theorem bool_readsBackAs (b : Bool) : ReadsBackAs (fun _ => bool) (.bool b) b := by
  intro d r p m hd _ _ _
  refine Outcome.of_ok ?_ (by simp [nesting]; omega) rfl
  cases b <;> simp [compact, bool, Cursor.blanks, skipBlanks, Cursor.advance, liftSyntax, Except.map,
    bytes, Nat.add_assoc]

theorem optional_string_readsBackAs (s : Option String) :
    ReadsBackAs (fun _ => optional string) (ofOption s) s := by
  intro d r p m hd hd' hr hfit
  cases s with
  | none =>
    refine Outcome.of_ok ?_ (by simp [ofOption, nesting]; omega) rfl
    simp [ofOption, compact, optional, Cursor.blanks, skipBlanks, Cursor.advance, liftSyntax, Except.map, bytes,
      Nat.add_assoc]
  | some t =>
    rcases (string_readsBackAs t d r p m hd hd' hr hfit).cases with ⟨hf, y, hres, rfl⟩ | ⟨hf, e, hres⟩
    · refine Outcome.of_ok ?_ hf rfl
      simp only [ofOption, compact] at hres ⊢
      rw [quote_append] at hres ⊢
      simp only [optional, blanks_quote]
      rw [hres]
      rfl
    · exact absurd (by simp [nesting]; omega) hf

theorem variantName_quote {names : List (String × Nat)} {s : String} {i : Nat}
    (h : names.find? (·.1 == s) = some (s, i)) (r : List Char) {p m : Nat}
    (hfit : p + bytes ((quote s).toList ++ r) ≤ m) :
    variantName names ⟨(quote s).toList ++ r, p, m⟩ = .ok (i, ⟨r, p + bytes (quote s).toList, m⟩) := by
  have hs := string_quote s r p m hfit
  rw [quote_append] at hs ⊢
  simp only [variantName, blanks_quote, hs]
  simp [h]

theorem unitVariant_readsBackAs {names : List (String × Nat)} {s : String} {i : Nat}
    (h : names.find? (·.1 == s) = some (s, i)) : ReadsBackAs (unitVariant names) (.string s) i := by
  intro d r p m hd _ _ hfit
  refine Outcome.of_ok ?_ (by simp [nesting]; omega) rfl
  have hv := variantName_quote h r hfit
  simp only [compact]
  rw [quote_append] at hv ⊢
  simp only [unitVariant, blanks_quote]
  exact hv

/-- A container read inside its brackets keeps the outcome of what is inside, one level of
nesting deeper, once its end closes. -/
theorem within_outcome {α : Type} {visit : Nat → Reader α} {past : Cursor → Cursor}
    {close : Cursor → Except Failure Cursor} {c c1 c2 : Cursor} (depth : Nat) (x : α) (fits : Prop)
    (hv : 1 < depth → Outcome fits (fun y => y = (x, c1)) (visit (depth - 1) c.advance))
    (hc : close c1 = .ok c2) :
    Outcome (1 < depth ∧ fits) (fun y => y = (x, c2)) (within depth visit past close c) := by
  unfold within
  split_ifs with hd
  · exact Outcome.of_error rfl (by omega)
  · rcases (hv (by omega)).cases with ⟨hf, y, hres, rfl⟩ | ⟨hf, e, hres⟩
    · rw [hres]
      exact Outcome.of_ok (by simp [hc]) ⟨by omega, hf⟩ rfl
    · rw [hres]
      cases e with
      | placed msg o => exact Outcome.of_error rfl (fun h => hf h.2)
      | pending pr stop => exact Outcome.of_error rfl (fun h => hf h.2)

theorem nextItem_close {c : Cursor} {t : List Char} (hc : c.rest = ']' :: t) (first : Bool) :
    nextItem c first = .ok (false, c) := by
  have hb : c.blanks = c := blanks_of_head (by simp [hc, IsBlank])
  simp [nextItem, hb, hc]

theorem nextItem_first {c : Cursor} {y : Char} {t : List Char} (hc : c.rest = y :: t) (hy : Opens y) :
    nextItem c true = .ok (true, c) := by
  have hb : c.blanks = c := blanks_of_head (by simp [hc]; exact hy.1)
  simp only [nextItem, hb, hc]
  split
  · simp at *
  · next heq => exact absurd (List.cons.inj heq).1 hy.2.2.1
  · rfl

theorem nextItem_comma {c : Cursor} {y : Char} {t : List Char} (hc : c.rest = ',' :: y :: t) (hy : Opens y) :
    nextItem c false = .ok (true, c.advance) := by
  have hb : c.blanks = c := blanks_of_head (by simp [hc, IsBlank])
  have hb1 : c.advance.blanks = c.advance := blanks_of_head (by simp [Cursor.advance, hc]; exact hy.1)
  have hadv : c.advance.rest = y :: t := by simp [Cursor.advance, hc]
  simp only [nextItem, hb, hc, hb1, hadv]
  split
  · next heq => simp at heq
  · next heq => simp at heq
  · next heq =>
    obtain ⟨rfl, -⟩ := List.cons.inj heq
    simp only [Bool.false_eq_true, if_false, if_true]
    split
    · next heq' => exact absurd (List.cons.inj heq').1 hy.2.2.1
    · simp at *
    · rfl

theorem closeSeq_bracket {c : Cursor} {t : List Char} (hc : c.rest = ']' :: t) : closeSeq c = .ok c.advance := by
  have hb : c.blanks = c := blanks_of_head (by simp [hc, IsBlank])
  simp [closeSeq, hb, hc]

theorem closeMap_brace {c : Cursor} {t : List Char} (hc : c.rest = '}' :: t) : closeMap c = .ok c.advance := by
  have hb : c.blanks = c := blanks_of_head (by simp [hc, IsBlank])
  simp [closeMap, hb, hc]

theorem length_itemsText_map {α : Type} (enc : α → Json) :
    ∀ (xs : List α) (first : Bool), (∀ x ∈ xs, (enc x).ReadsBack) → xs.length < (itemsText first (xs.map enc)).length
  | [], _, _ => by simp [itemsText]
  | x :: rest, first, h => by
    have := length_itemsText_map enc rest false (fun y hy => h y (List.mem_cons_of_mem _ hy))
    obtain ⟨y, t, hyt, -⟩ := compact_head (h x List.mem_cons_self)
    simp [itemsText_cons, hyt]
    omega

section Items

variable {α : Type} {read : Nat → Reader α} {enc : α → Json}

/-- The items of a sequence, each read back by `read`, are read back up to the closing
bracket, which is left for the end of the sequence. -/
theorem items_readsBackAs {d : Nat} (hd : 0 < d) (hd' : d ≤ 128) :
    ∀ (xs : List α) (first : Bool) (acc : List α) (fuel : Nat) (r : List Char) (p m : Nat),
      (∀ x ∈ xs, ReadsBackAs read (enc x) x ∧ (enc x).ReadsBack) → xs.length < fuel →
      p + bytes (itemsText first (xs.map enc) ++ r) ≤ m →
      Outcome (nestingItems (xs.map enc) < d)
        (fun y => y = (acc.reverse ++ xs, ⟨']' :: r, p + bytes (itemsText first (xs.map enc)) - 1, m⟩))
        (items (read d) fuel first acc ⟨itemsText first (xs.map enc) ++ r, p, m⟩)
  | _, _, _, 0, _, _, _, _, hlen, _ => absurd hlen (Nat.not_lt_zero _)
  | [], first, acc, fuel + 1, r, p, m, _, _, _ => by
    have hres : items (read d) (fuel + 1) first acc ⟨itemsText first ([].map enc) ++ r, p, m⟩ =
        .ok (acc.reverse, ⟨']' :: r, p, m⟩) := by
      simp only [List.map_nil, itemsText, List.singleton_append, items]
      rw [nextItem_close rfl]
    refine Outcome.of_ok hres (by simp [nestingItems]; omega) ?_
    simp [itemsText, bytes, Char.utf8Size]
  | x :: rest, first, acc, fuel + 1, r, p, m, hxs, hlen, hfit => by
    obtain ⟨hx, hxj⟩ := hxs x List.mem_cons_self
    obtain ⟨y, t, hyt, hy⟩ := compact_head hxj
    have hfit' : p + bytes (lead first) + bytes (compact (enc x)).toList +
        bytes (itemsText false (rest.map enc)) + bytes r ≤ m := by
      simpa [itemsText_cons, Nat.add_assoc] using hfit
    have hnext : nextItem ⟨itemsText first ((x :: rest).map enc) ++ r, p, m⟩ first =
        .ok (true, ⟨(compact (enc x)).toList ++ (itemsText false (rest.map enc) ++ r), p + bytes (lead first), m⟩) := by
      cases first
      · rw [nextItem_comma (t := t ++ (itemsText false (rest.map enc) ++ r)) (by simp [itemsText_cons, lead, hyt]) hy]
        simp [itemsText_cons, lead, Cursor.advance, bytes]
      · rw [nextItem_first (t := t ++ (itemsText false (rest.map enc) ++ r)) (by simp [itemsText_cons, lead, hyt]) hy]
        simp [itemsText_cons, lead, bytes]
    simp only [items, hnext]
    rcases (hx d (itemsText false (rest.map enc) ++ r) (p + bytes (lead first)) m hd hd' (numEnd_itemsText _ r)
      (by simp only [bytes_append]; omega)).cases with ⟨hf, z, hres, rfl⟩ | ⟨hf, e, hres⟩
    · rw [hres]
      have hrest := items_readsBackAs hd hd' rest false (x :: acc) fuel r
        (p + bytes (lead first) + bytes (compact (enc x)).toList) m (fun z hz => hxs z (List.mem_cons_of_mem _ hz))
        (by simp at hlen; omega) (by simp only [bytes_append]; omega)
      refine (hrest.iff ?_).mono ?_
      · simp only [List.map_cons, nestingItems]; omega
      · rintro z rfl
        simp [itemsText_cons, Nat.add_assoc]
    · rw [hres]
      exact Outcome.of_error rfl (by simp only [List.map_cons, nestingItems]; omega)

theorem array_readsBack (xs : List α) (h : ∀ x ∈ xs, (enc x).ReadsBack) : (Json.array (xs.map enc)).ReadsBack := by
  induction xs with
  | nil => trivial
  | cons x rest ih =>
    exact ⟨h x List.mem_cons_self, ih fun y hy => h y (List.mem_cons_of_mem _ hy)⟩

theorem list_readsBackAs (xs : List α) (hxs : ∀ x ∈ xs, ReadsBackAs read (enc x) x ∧ (enc x).ReadsBack) :
    ReadsBackAs (list read) (.array (xs.map enc)) xs := by
  intro d r p m hd hd' hr hfit
  rw [compact_array_toList] at hfit ⊢
  simp only [bytes_cons, bytes_append, show '['.utf8Size = 1 from rfl] at hfit
  have hlen : xs.length < budget ⟨itemsText true (xs.map enc) ++ r, p + 1, m⟩ := by
    have h1 := length_itemsText_map enc xs true (fun x hx => (hxs x hx).2)
    have h2 := length_le_bytes (itemsText true (xs.map enc))
    simp only [budget]
    omega
  have hb : (Cursor.mk ('[' :: itemsText true (xs.map enc) ++ r) p m).blanks =
      ⟨'[' :: itemsText true (xs.map enc) ++ r, p, m⟩ := blanks_of_head (by simp [IsBlank])
  simp only [list, hb]
  refine ((within_outcome d xs (nestingItems (xs.map enc) < d - 1) (fun h1 => ?_)
    (closeSeq_bracket (c := ⟨']' :: r, p + 1 + bytes (itemsText true (xs.map enc)) - 1, m⟩) rfl)).iff ?_).mono ?_
  · exact items_readsBackAs (d := d - 1) (by omega) (by omega) xs true [] _ r (p + 1) m hxs hlen
      (by rw [bytes_append]; omega)
  · simp only [nesting]; omega
  · rintro y rfl
    have hpos := length_le_bytes (itemsText true (xs.map enc))
    have hne := length_itemsText_map enc xs true (fun x hx => (hxs x hx).2)
    simp [Cursor.advance, bytes_cons, Char.utf8Size]
    omega

/-- A field holding a list: read back as the list, changed by `g`, from a document that reads
back itself. -/
theorem listField_readsBackAs {β : Type} {xs : List α} (hxs : ∀ x ∈ xs, ReadsBackAs read (enc x) x ∧ (enc x).ReadsBack)
    (g : List α → β) :
    ReadsBackAs (fun d => Reader.map g (list read d)) (.array (xs.map enc)) (g xs) ∧
      (Json.array (xs.map enc)).ReadsBack :=
  ⟨(list_readsBackAs xs hxs).map g, array_readsBack xs fun x hx => (hxs x hx).2⟩

end Items

theorem nextKey_close {c : Cursor} {t : List Char} (hc : c.rest = '}' :: t) (first : Bool) :
    nextKey c first = .ok (false, c) := by
  have hb : c.blanks = c := blanks_of_head (by simp [hc, IsBlank])
  simp [nextKey, hb, hc]

theorem nextKey_first {c : Cursor} {t : List Char} (hc : c.rest = '"' :: t) : nextKey c true = .ok (true, c) := by
  have hb : c.blanks = c := blanks_of_head (by simp [hc, IsBlank])
  simp [nextKey, hb, hc]

theorem nextKey_comma {c : Cursor} {t : List Char} (hc : c.rest = ',' :: '"' :: t) :
    nextKey c false = .ok (true, c.advance) := by
  have hb : c.blanks = c := blanks_of_head (by simp [hc, IsBlank])
  have hb1 : c.advance.blanks = c.advance := blanks_of_head (by simp [Cursor.advance, hc, IsBlank])
  have hadv : c.advance.rest = '"' :: t := by simp [Cursor.advance, hc]
  simp [nextKey, hb, hc, hb1, hadv]

theorem colon_colon {c : Cursor} {t : List Char} (hc : c.rest = ':' :: t) : colon c = .ok c.advance := by
  have hb : c.blanks = c := blanks_of_head (by simp [hc, IsBlank])
  simp [colon, hb, hc]

/-- The key of a member is read, after the comma before it unless it comes first, up to the
place after its colon. -/
theorem member_key {first : Bool} {k : String} {j : Json} {rest : List (String × Json)} {r : List Char}
    {p m : Nat} (hfit : p + bytes (membersText first ((k, j) :: rest) ++ r) ≤ m) :
    ∃ c1 c2, nextKey ⟨membersText first ((k, j) :: rest) ++ r, p, m⟩ first = .ok (true, c1) ∧
      c1.advance.string = .ok (k, c2) ∧
      colon c2 = .ok ⟨(compact j).toList ++ (membersText false rest ++ r),
        p + bytes (lead first) + bytes (quote k).toList + 1, m⟩ := by
  have hfit' : p + bytes (lead first) + bytes (quote k).toList + 1 + bytes (compact j).toList +
      bytes (membersText false rest) + bytes r ≤ m := by
    simp [membersText_cons, Char.utf8Size] at hfit; omega
  have hnext : nextKey ⟨membersText first ((k, j) :: rest) ++ r, p, m⟩ first =
      .ok (true, ⟨(quote k).toList ++ (':' :: (compact j).toList ++ membersText false rest ++ r),
        p + bytes (lead first), m⟩) := by
    cases first
    · rw [nextKey_comma (t := escaped k.toList ++ '"' :: ':' :: ((compact j).toList ++
        (membersText false rest ++ r))) (by simp [membersText_cons, lead, quote_toList])]
      simp [membersText_cons, lead, Cursor.advance, bytes]
    · rw [nextKey_first (t := escaped k.toList ++ '"' :: ':' :: ((compact j).toList ++
        (membersText false rest ++ r))) (by simp [membersText_cons, lead, quote_toList])]
      simp [membersText_cons, lead, bytes]
  refine ⟨_, ⟨':' :: ((compact j).toList ++ (membersText false rest ++ r)),
    p + bytes (lead first) + bytes (quote k).toList, m⟩, hnext, ?_, colon_colon rfl⟩
  rw [string_quote k _ _ m (by simp only [bytes_append, bytes_cons] at hfit' ⊢; simp [Char.utf8Size]; omega)]
  simp

section Members

variable {β : Type}

/-- The members of a record text: each a key that names a field, the document of its value, and
the value its field reads back from the document. -/
def FieldsReadBack (fields : List (RecordField β)) (parts : List (String × Json × β)) : Prop :=
  ∀ t ∈ parts, ∃ f, fields.find? (·.name == t.1) = some f ∧ ReadsBackAs f.read t.2.1 t.2.2 ∧ t.2.1.ReadsBack

theorem FieldsReadBack.nil (fields : List (RecordField β)) : FieldsReadBack fields [] :=
  fun _ h => absurd h List.not_mem_nil

theorem FieldsReadBack.cons {fields : List (RecordField β)} {t : String × Json × β} {parts : List (String × Json × β)}
    (ht : ∃ f, fields.find? (·.name == t.1) = some f ∧ ReadsBackAs f.read t.2.1 t.2.2 ∧ t.2.1.ReadsBack)
    (h : FieldsReadBack fields parts) : FieldsReadBack fields (t :: parts) := by
  intro t' ht'
  rcases List.mem_cons.mp ht' with rfl | ht'
  · exact ht
  · exact h t' ht'

/-- The members of a record, each read back by its field, are read back up to the closing
brace, which is left for the end of the record. -/
theorem members_readsBackAs {fields : List (RecordField β)} {d : Nat} (hd : 0 < d) (hd' : d ≤ 128) :
    ∀ (parts : List (String × Json × β)) (first : Bool) (seen : List (String × β)) (fuel : Nat)
      (r : List Char) (p m : Nat),
      FieldsReadBack fields parts → (parts.map (·.1)).Nodup → (∀ t ∈ parts, seen.any (·.1 == t.1) = false) →
      parts.length < fuel → p + bytes (membersText first (parts.map fun t => (t.1, t.2.1)) ++ r) ≤ m →
      Outcome (nestingMembers (parts.map fun t => (t.1, t.2.1)) < d)
        (fun y => y = (seen ++ parts.map (fun t => (t.1, t.2.2)),
          ⟨'}' :: r, p + bytes (membersText first (parts.map fun t => (t.1, t.2.1))) - 1, m⟩))
        (members fields d fuel first seen ⟨membersText first (parts.map fun t => (t.1, t.2.1)) ++ r, p, m⟩)
  | _, _, _, 0, _, _, _, _, _, _, hlen, _ => absurd hlen (Nat.not_lt_zero _)
  | [], first, seen, fuel + 1, r, p, m, _, _, _, _, _ => by
    have hres : members fields d (fuel + 1) first seen ⟨membersText first [] ++ r, p, m⟩ = .ok (seen, ⟨'}' :: r, p, m⟩) := by
      simp only [membersText, List.singleton_append, members]
      rw [nextKey_close rfl]
    refine Outcome.of_ok hres (by simp [nestingMembers]; omega) ?_
    simp [membersText, bytes, Char.utf8Size]
  | (k, j, v) :: rest, first, seen, fuel + 1, r, p, m, hparts, hkeys, hseen, hlen, hfit => by
    obtain ⟨f, hfind, hf, hj⟩ := hparts (k, j, v) List.mem_cons_self
    dsimp only at hfind hf hj
    simp only [List.map_cons] at hfit hkeys ⊢
    obtain ⟨c1, c2, hnext, hkey, hcolon⟩ := member_key hfit
    have hfit' : p + bytes (lead first) + bytes (quote k).toList + 1 + bytes (compact j).toList +
        bytes (membersText false (rest.map fun t => (t.1, t.2.1))) + bytes r ≤ m := by
      simp [membersText_cons, Char.utf8Size] at hfit; omega
    set q := p + bytes (lead first) + bytes (quote k).toList with hq
    have hfresh : seen.any (·.1 == k) = false := hseen (k, j, v) List.mem_cons_self
    simp only [members, hnext, hkey, hfind, hfresh, Bool.false_eq_true, if_false, hcolon]
    rcases (hf d (membersText false (rest.map fun t => (t.1, t.2.1)) ++ r) (q + 1) m hd hd' (numEnd_membersText _ r)
      (by simp only [bytes_append]; omega)).cases with ⟨hfits, y, hres, rfl⟩ | ⟨hfits, e, hres⟩
    · rw [hres]
      have hnodup := List.nodup_cons.mp hkeys
      have hrest := members_readsBackAs hd hd' rest false (seen ++ [(k, v)]) fuel r (q + 1 + bytes (compact j).toList) m
        (fun t ht => hparts t (List.mem_cons_of_mem _ ht)) hnodup.2
        (fun t ht => by
          have hne : k ≠ t.1 := fun h => hnodup.1 (by rw [h]; exact List.mem_map_of_mem (f := fun t => t.1) ht)
          simp [hseen t (List.mem_cons_of_mem _ ht), hne])
        (by simp at hlen; omega) (by simp only [bytes_append]; omega)
      refine (hrest.iff ?_).mono ?_
      · simp only [nestingMembers]; omega
      · rintro z rfl
        simp [membersText_cons, hq, Char.utf8Size]
        omega
    · rw [hres]
      exact Outcome.of_error rfl (by simp only [nestingMembers]; omega)

theorem length_lt_membersText : ∀ (members : List (String × Json)) (first : Bool),
    members.length < (membersText first members).length
  | [], _ => by simp [membersText]
  | (k, j) :: rest, first => by
    have := length_lt_membersText rest false
    simp [membersText_cons, quote_toList]
    omega

/-- A record whose members, under distinct keys, are each read back by their fields is read
back as the value its build makes of them. -/
theorem record_readsBackAs {α : Type} (expected : String) {fields : List (RecordField β)}
    {build : List (String × β) → Except Problem α} (parts : List (String × Json × β))
    (hparts : FieldsReadBack fields parts) (hkeys : (parts.map (·.1)).Nodup) {x : α}
    (hbuild : build (parts.map fun t => (t.1, t.2.2)) = .ok x) :
    ReadsBackAs (fun d => record expected fields build d) (.object (parts.map fun t => (t.1, t.2.1))) x := by
  intro d r p m hd hd' hr hfit
  rw [compact_object_toList] at hfit ⊢
  simp only [bytes_cons, bytes_append, show '{'.utf8Size = 1 from rfl] at hfit
  have hlen : parts.length < budget ⟨membersText true (parts.map fun t => (t.1, t.2.1)) ++ r, p + 1, m⟩ := by
    have h1 := length_lt_membersText (parts.map fun t => (t.1, t.2.1)) true
    rw [List.length_map] at h1
    have h2 := length_le_bytes (membersText true (parts.map fun t => (t.1, t.2.1)))
    simp only [budget]
    omega
  have hb : (Cursor.mk ('{' :: membersText true (parts.map fun t => (t.1, t.2.1)) ++ r) p m).blanks =
      ⟨'{' :: membersText true (parts.map fun t => (t.1, t.2.1)) ++ r, p, m⟩ := blanks_of_head (by simp [IsBlank])
  simp only [record, hb]
  refine ((within_outcome d x (nestingMembers (parts.map fun t => (t.1, t.2.1)) < d - 1) (fun h1 => ?_)
    (closeMap_brace (c := ⟨'}' :: r, p + 1 + bytes (membersText true (parts.map fun t => (t.1, t.2.1))) - 1, m⟩)
      rfl)).iff ?_).mono ?_
  · have hadv : (Cursor.mk ('{' :: membersText true (parts.map fun t => (t.1, t.2.1)) ++ r) p m).advance =
        ⟨membersText true (parts.map fun t => (t.1, t.2.1)) ++ r, p + 1, m⟩ := rfl
    rw [hadv]
    rcases (members_readsBackAs (d := d - 1) (by omega) (by omega) parts true [] _ r (p + 1) m
      hparts hkeys (fun _ _ => rfl) hlen (by rw [bytes_append]; omega)).cases with ⟨hf, y, hres, rfl⟩ | ⟨hf, e, hres⟩
    · exact Outcome.of_ok (by rw [hres]; simp only [List.nil_append, hbuild]) hf rfl
    · exact Outcome.of_error (by rw [hres]) hf
  · simp only [nesting]; omega
  · rintro y rfl
    have hpos := length_le_bytes (membersText true (parts.map fun t => (t.1, t.2.1)))
    have hne := length_lt_membersText (parts.map fun t => (t.1, t.2.1)) true
    simp [Cursor.advance, bytes_cons, Char.utf8Size]
    omega

end Members


/-- A whole text read from the outermost depth: the compact text of `j` gives `x` exactly when
`j` nests less than 128 deep. -/
theorem run_compact {α : Type} {read : Nat → Reader α} {j : Json} {x : α} (h : ReadsBackAs read j x) :
    Outcome (j.nesting < 128) (· = x) (run read (compact j)) := by
  have hout := h 128 [] 0 (compact j).utf8ByteSize (by omega) le_rfl (by simp [NumEnd])
    (by rw [List.append_nil, utf8ByteSize_eq_bytes]; omega)
  rw [List.append_nil] at hout
  rcases hout.cases with ⟨hf, y, hres, rfl⟩ | ⟨hf, e, hres⟩
  · refine Outcome.of_ok ?_ hf rfl
    simp only [run, hres]
    rfl
  · exact Outcome.of_error (by simp only [run, hres]; rfl) hf

end QueryAdvisor.JsonText

namespace QueryAdvisor.QueryText

open Json JsonText

/-- The members of a predicate after its kind are taken as documents, in their order, up to
the closing brace, which is left for the end of the predicate. -/
theorem taggedMembers_reads {d : Nat} (hd : 0 < d) (kind : Option Nat) :
    ∀ (members acc : List (String × Json)) (first : Bool) (fuel : Nat) (r : List Char) (p m : Nat),
      MembersReadBack members → (∀ kv ∈ members, kv.1 ≠ "kind") → members.length < fuel →
      p + bytes (membersText first members ++ r) ≤ m →
      Outcome (nestingMembers members < d)
        (fun y => y = ((kind, acc.reverse ++ members), ⟨'}' :: r, p + bytes (membersText first members) - 1, m⟩))
        (taggedMembers d fuel first kind acc ⟨membersText first members ++ r, p, m⟩)
  | _, _, _, 0, _, _, _, _, _, hlen, _ => absurd hlen (Nat.not_lt_zero _)
  | [], acc, first, fuel + 1, r, p, m, _, _, _, _ => by
    have hres : taggedMembers d (fuel + 1) first kind acc ⟨membersText first [] ++ r, p, m⟩ =
        .ok ((kind, acc.reverse), ⟨'}' :: r, p, m⟩) := by
      simp only [membersText, List.singleton_append, taggedMembers]
      rw [nextKey_close rfl]
    refine Outcome.of_ok hres (by simp [nestingMembers]; omega) ?_
    simp [membersText, bytes, Char.utf8Size]
  | (k, j) :: rest, acc, first, fuel + 1, r, p, m, hback, hkind, hlen, hfit => by
    obtain ⟨c1, c2, hnext, hkey, hcolon⟩ := member_key hfit
    have hfit' : p + bytes (lead first) + bytes (quote k).toList + 1 + bytes (compact j).toList +
        bytes (membersText false rest) + bytes r ≤ m := by
      simp [membersText_cons, Char.utf8Size] at hfit; omega
    set q := p + bytes (lead first) + bytes (quote k).toList with hq
    have hk : (k == "kind") = false := by simpa using hkind (k, j) List.mem_cons_self
    simp only [taggedMembers, hnext, hkey, hk, Bool.false_eq_true, if_false, hcolon]
    have hsteps : (compact j).toList.length ≤ 2 * budget ⟨(compact j).toList ++ (membersText false rest ++ r), q + 1, m⟩ := by
      have := length_le_bytes (compact j).toList
      simp only [budget]; omega
    rcases (value_compact hback.1 hd (numEnd_membersText rest r) (p := q + 1) (m := m)
      (by simp only [bytes_append]; omega) hsteps).cases with ⟨hfits, ⟨j', s, c4⟩, hres, hj, hc4⟩ | ⟨hfits, e, hres⟩
    · dsimp only at hj hc4
      subst j' c4
      rw [hres]
      have hrest := taggedMembers_reads hd kind rest ((k, j) :: acc) false fuel r (q + 1 + bytes (compact j).toList) m
        hback.2 (fun kv hkv => hkind kv (List.mem_cons_of_mem _ hkv)) (by simp at hlen; omega)
        (by simp only [bytes_append]; omega)
      refine (hrest.iff ?_).mono ?_
      · simp only [nestingMembers]; omega
      · rintro z rfl
        simp [membersText_cons, hq, Char.utf8Size]
        omega
    · rw [hres]
      exact Outcome.of_error rfl (by simp only [nestingMembers]; omega)

theorem kindNames_find (p : Predicate) :
    kindNames.find? (·.1 == Predicate.kindNames.getD p.kindIndex "") =
      some (Predicate.kindNames.getD p.kindIndex "", p.kindIndex) := by
  cases p <;> rfl

theorem taggedMembers_kind {name : String} {i : Nat} (hfind : kindNames.find? (·.1 == name) = some (name, i))
    (d f : Nat) (rest : List (String × Json)) (r : List Char) (p m : Nat)
    (hfit : p + bytes (membersText true (("kind", .string name) :: rest) ++ r) ≤ m) :
    taggedMembers d (f + 1) true none [] ⟨membersText true (("kind", .string name) :: rest) ++ r, p, m⟩ =
      taggedMembers d f false (some i) []
        ⟨membersText false rest ++ r, p + bytes (quote "kind").toList + 1 + bytes (quote name).toList, m⟩ := by
  obtain ⟨c1, c2, hnext, hkey, hcolon⟩ := member_key hfit
  have hkind := variantName_quote hfind (membersText false rest ++ r)
    (p := p + bytes (lead true) + bytes (quote "kind").toList + 1) (m := m)
    (by simp [membersText_cons, lead, compact, Char.utf8Size] at hfit ⊢; omega)
  simp only [taggedMembers, hnext, hkey, beq_self_eq_true, if_true, Option.isSome_none, Bool.false_eq_true, if_false,
    hcolon, Except.bind, compact, hkind]
  simp [lead]

/-- A predicate whose values read back is read back from the compact text of its document:
its kind first, then its other members as documents, which its fields are read from. -/
theorem predicate_readsBackAs {p : Predicate} (hp : p.ReadsBack) : ReadsBackAs predicate (Predicate.toJson p) p := by
  intro d r pos m hd hd' hr hfit
  rw [Predicate.toJson_eq, compact_object_toList] at hfit ⊢
  have hfind := kindNames_find p
  generalize Predicate.kindNames.getD p.kindIndex "" = name at hfind hfit ⊢
  have hsplit : bytes (membersText true (("kind", .string name) :: p.fieldsJson)) =
      bytes (quote "kind").toList + 1 + bytes (quote name).toList + bytes (membersText false p.fieldsJson) := by
    simp only [membersText_cons, lead, if_true, List.nil_append, bytes_append, bytes_cons, compact]
    simp [Char.utf8Size]; omega
  simp only [bytes_cons, bytes_append, show '{'.utf8Size = 1 from rfl] at hfit
  rw [List.cons_append]
  have hb : (Cursor.mk ('{' :: (membersText true (("kind", .string name) :: p.fieldsJson) ++ r)) pos m).blanks =
      ⟨'{' :: (membersText true (("kind", .string name) :: p.fieldsJson) ++ r), pos, m⟩ :=
    blanks_of_head (by simp [IsBlank])
  simp only [predicate, hb]
  by_cases h1 : d ≤ 1
  · rw [if_pos h1]
    exact Outcome.of_error rfl (by simp only [nesting]; omega)
  rw [if_neg h1]
  have hadv : (Cursor.mk ('{' :: (membersText true (("kind", .string name) :: p.fieldsJson) ++ r)) pos m).advance =
      ⟨membersText true (("kind", .string name) :: p.fieldsJson) ++ r, pos + 1, m⟩ := rfl
  have hbudget : budget (Cursor.mk ('{' :: (membersText true (("kind", .string name) :: p.fieldsJson) ++ r)) pos m) =
      (m - pos) + 1 := rfl
  rw [hadv, hbudget, taggedMembers_kind hfind (d - 1) (m - pos) p.fieldsJson r (pos + 1) m
    (by rw [bytes_append]; omega)]
  have hlen : p.fieldsJson.length < m - pos := by
    have h1 := length_lt_membersText p.fieldsJson false
    have h2 := length_le_bytes (membersText false p.fieldsJson)
    omega
  rcases (taggedMembers_reads (d := d - 1) (by omega) (some p.kindIndex) p.fieldsJson [] false (m - pos) r
      (pos + 1 + bytes (quote "kind").toList + 1 + bytes (quote name).toList) m
      (Predicate.fieldsJson_readsBack hp) (Predicate.fieldsJson_ne_kind p) hlen
      (by rw [bytes_append]; omega)).cases with ⟨hf, y, hres, rfl⟩ | ⟨hf, e, hres⟩
  · have hn : (Predicate.toJson p).nesting < 128 := by
      rw [Predicate.toJson_eq]; simp only [nesting, nestingMembers]; omega
    rw [hres]
    simp only [List.reverse_nil, List.nil_append]
    rw [closeMap_brace rfl]
    simp only [Predicate.ofFields_readField hp hn []]
    refine Outcome.of_ok rfl (by simp only [nesting, nestingMembers]; omega) ?_
    simp [Cursor.advance, bytes_cons, Char.utf8Size, hsplit]
    omega
  · rw [hres]
    cases e <;> exact Outcome.of_error rfl (by simp only [nesting, nestingMembers]; omega)

theorem ofOption_readsBack (s : Option String) : (ofOption s).ReadsBack := by
  cases s <;> trivial

theorem joinKind_find (k : JoinKind) :
    ∃ i, (numbered JoinKind.names).find? (·.1 == k.name) = some (k.name, i) ∧ JoinKind.ofIndex i = k := by
  cases k <;> exact ⟨_, rfl, rfl⟩

theorem function_find (f : AggregateFn) :
    ∃ i, (numbered AggregateFn.names).find? (·.1 == f.name) = some (f.name, i) ∧ functionOfIndex i = f := by
  cases f <;> exact ⟨_, rfl, rfl⟩

theorem join_readsBackAs (j : Join) : ReadsBackAs join (Join.toJson j) j := by
  obtain ⟨i, hfind, hi⟩ := joinKind_find j.kind
  have hkind : ReadsBackAs (fun d => Reader.map (Part.joinKind ∘ JoinKind.ofIndex) (unitVariant (numbered JoinKind.names) d))
      (.string j.kind.name) (.joinKind j.kind) := by
    have h := (unitVariant_readsBackAs hfind).map (Part.joinKind ∘ JoinKind.ofIndex)
    rwa [Function.comp_apply, hi] at h
  unfold join
  refine record_readsBackAs "struct JoinClause"
    [("table", .string j.table, .text j.table), ("alias", ofOption j.aliasName, .maybeText j.aliasName),
     ("join_type", .string j.kind.name, .joinKind j.kind), ("left_field", .string j.leftField, .text j.leftField),
     ("right_field", .string j.rightField, .text j.rightField)] ?_ (by simp) ?_
  · exact .cons ⟨_, rfl, (string_readsBackAs _).map _, trivial⟩ <|
      .cons ⟨_, rfl, (optional_string_readsBackAs _).map _, ofOption_readsBack _⟩ <|
      .cons ⟨_, rfl, hkind, trivial⟩ <|
      .cons ⟨_, rfl, (string_readsBackAs _).map _, trivial⟩ <|
      .cons ⟨_, rfl, (string_readsBackAs _).map _, trivial⟩ <| .nil _
  · simp [need, lookup, Part.text?, Part.maybeText?, Part.joinKind?]
    rfl

theorem orderKey_readsBackAs (o : OrderKey) : ReadsBackAs orderKey (OrderKey.toJson o) o := by
  unfold orderKey
  refine record_readsBackAs "struct OrderBy"
    [("column", .string o.column, .text o.column), ("descending", .bool o.descending, .flag o.descending)] ?_ (by simp) ?_
  · exact .cons ⟨_, rfl, (string_readsBackAs _).map _, trivial⟩ <|
      .cons ⟨_, rfl, (bool_readsBackAs _).map _, trivial⟩ <| .nil _
  · simp [need, lookup, Part.text?, Part.flag?]
    rfl

theorem aggregate_readsBackAs (a : Aggregate) : ReadsBackAs aggregate (Aggregate.toJson a) a := by
  obtain ⟨i, hfind, hi⟩ := function_find a.fn
  have hfn : ReadsBackAs (fun d => Reader.map (Part.function ∘ functionOfIndex) (unitVariant (numbered AggregateFn.names) d))
      (.string a.fn.name) (.function a.fn) := by
    have h := (unitVariant_readsBackAs hfind).map (Part.function ∘ functionOfIndex)
    rwa [Function.comp_apply, hi] at h
  unfold aggregate
  refine record_readsBackAs "struct Aggregate"
    [("function", .string a.fn.name, .function a.fn), ("column", ofOption a.column, .maybeText a.column),
     ("alias", ofOption a.aliasName, .maybeText a.aliasName)] ?_ (by simp) ?_
  · exact .cons ⟨_, rfl, hfn, trivial⟩ <|
      .cons ⟨_, rfl, (optional_string_readsBackAs _).map _, ofOption_readsBack _⟩ <|
      .cons ⟨_, rfl, (optional_string_readsBackAs _).map _, ofOption_readsBack _⟩ <| .nil _
  · simp [need, lookup, Part.function?, Part.maybeText?]
    rfl

/-- A query model whose predicates read back is read back from the compact text of its
document, when that nests within the depth left. -/
theorem query_readsBackAs (q : Query) (hq : Predicate.ListReadsBack q.predicates) :
    ReadsBackAs query (Query.toJson q) q := by
  have hpreds : ∀ p ∈ q.predicates, ReadsBackAs predicate (Predicate.toJson p) p ∧ (Predicate.toJson p).ReadsBack :=
    fun p hp => ⟨predicate_readsBackAs (Predicate.readsBack_of_mem hq hp),
      Predicate.toJson_readsBack p (Predicate.readsBack_of_mem hq hp)⟩
  have hjoins : ∀ j ∈ q.joins, ReadsBackAs join (Join.toJson j) j ∧ (Join.toJson j).ReadsBack :=
    fun j _ => ⟨join_readsBackAs j, trivial, ofOption_readsBack _, trivial, trivial, trivial, trivial⟩
  have hnames : ∀ s ∈ q.groupBy, ReadsBackAs (fun _ => JsonText.string) (.string s) s ∧ (Json.string s).ReadsBack :=
    fun s _ => ⟨string_readsBackAs s, trivial⟩
  have horder : ∀ o ∈ q.orderBy, ReadsBackAs orderKey (OrderKey.toJson o) o ∧ (OrderKey.toJson o).ReadsBack :=
    fun o _ => ⟨orderKey_readsBackAs o, trivial, trivial, trivial⟩
  have haggs : ∀ a ∈ q.aggregates, ReadsBackAs aggregate (Aggregate.toJson a) a ∧ (Aggregate.toJson a).ReadsBack :=
    fun a _ => ⟨aggregate_readsBackAs a, trivial, ofOption_readsBack _, ofOption_readsBack _, trivial⟩
  rw [Query.toJson, Predicate.toJsonList_eq]
  unfold query
  refine record_readsBackAs "struct QueryModel"
    [("table", .string q.table, .text q.table), ("alias", ofOption q.aliasName, .maybeText q.aliasName),
     ("predicates", .array (q.predicates.map Predicate.toJson), .predicates q.predicates),
     ("joins", .array (q.joins.map Join.toJson), .joins q.joins),
     ("group_by", .array (q.groupBy.map Json.string), .names q.groupBy),
     ("order_by", .array (q.orderBy.map OrderKey.toJson), .orderKeys q.orderBy),
     ("aggregates", .array (q.aggregates.map Aggregate.toJson), .aggregates q.aggregates)] ?_ (by simp) ?_
  · exact .cons ⟨_, rfl, (string_readsBackAs _).map _, trivial⟩ <|
      .cons ⟨_, rfl, (optional_string_readsBackAs _).map _, ofOption_readsBack _⟩ <|
      .cons ⟨_, rfl, listField_readsBackAs hpreds _⟩ <| .cons ⟨_, rfl, listField_readsBackAs hjoins _⟩ <|
      .cons ⟨_, rfl, listField_readsBackAs hnames _⟩ <| .cons ⟨_, rfl, listField_readsBackAs horder _⟩ <|
      .cons ⟨_, rfl, listField_readsBackAs haggs _⟩ <| .nil _
  · simp [need, lookup, Part.text?, Part.maybeText?, Part.predicates?, Part.joins?, Part.names?, Part.orderKeys?,
      Part.aggregates?]
    rfl

end QueryAdvisor.QueryText

namespace QueryAdvisor.Predicate

/-- `n` negations of `p`. -/
def negations : Nat → Predicate → Predicate
  | 0, p => p
  | n + 1, p => .logical .not [negations n p]

theorem negations_readsBack {p : Predicate} (hp : p.ReadsBack) : ∀ n, (negations n p).ReadsBack
  | 0 => hp
  | n + 1 => ⟨negations_readsBack hp n, trivial⟩

theorem nesting_negations (p : Predicate) : ∀ n, (toJson (negations n p)).nesting = (toJson p).nesting + 2 * n
  | 0 => rfl
  | n + 1 => by
    rw [negations, nesting_logical, toJsonList, toJsonList]
    simp only [Json.nestingItems, nesting_negations p n]
    omega

end QueryAdvisor.Predicate

namespace QueryAdvisor.Query

open Json

/-- Reading back the compact text of a query model's document: the model itself when the
document nests less than 128 deep, a failure otherwise. -/
theorem read_compact_outcome (q : Query) (hq : Predicate.ListReadsBack q.predicates) :
    Outcome ((toJson q).nesting < 128) (· = q) (Query.read (compact (toJson q))) := by
  rcases (JsonText.run_compact (QueryText.query_readsBackAs q hq)).cases with ⟨hf, y, hres, rfl⟩ | ⟨hf, e, hres⟩
  · exact Outcome.of_ok (by simp only [Query.read, hres]) hf rfl
  · exact Outcome.of_error (by simp only [Query.read, hres]; rfl) hf

/-- **Query text round trip.** A query model whose literals read back is read back from the
compact text of its document exactly when the document nests less than 128 deep. -/
theorem read_compact_toJson_iff (q : Query) (hq : Predicate.ListReadsBack q.predicates) :
    Query.read (compact (toJson q)) = .ok q ↔ (toJson q).nesting < 128 :=
  (read_compact_outcome q hq).eq_ok_iff

/-- A query on a table, filtered, joined, grouped, ordered and counted. -/
def sampleUsers : Query :=
  ⟨"users", some "u", [.comparison "u.age" .gt (.int 30), .logical .not [.raw "u.active = 0"]],
    [⟨"orders", none, .left, "u.id", "orders.user_id"⟩], ["u.city"], [⟨"u.city", true⟩], [⟨.count, none, some "n"⟩]⟩

theorem read_compact_toJson_sampleUsers : Query.read (compact (toJson sampleUsers)) = .ok sampleUsers :=
  (read_compact_toJson_iff sampleUsers ⟨trivial, ⟨trivial, trivial⟩, trivial⟩).mpr (by decide)

/-- A query filtered by 63 negations of one condition. -/
def deepNegations : Query :=
  ⟨"t", none, [Predicate.negations 63 (.raw "x = 1")], [], [], [], []⟩

theorem deep_negations_refused : Query.read (compact (toJson deepNegations)) ≠ .ok deepNegations := by
  have hq : Predicate.ListReadsBack deepNegations.predicates := ⟨Predicate.negations_readsBack (p := .raw "x = 1") trivial 63, trivial⟩
  have hn : (toJson deepNegations).nesting = 129 := by
    simp [deepNegations, toJson, Predicate.toJsonList, Predicate.nesting_negations, Json.nesting,
      Json.nestingMembers, Json.nestingItems, ofOption, ofStrings, Predicate.toJson]
  rw [Ne, (read_compact_outcome deepNegations hq).eq_ok_iff, hn]
  omega

end QueryAdvisor.Query
