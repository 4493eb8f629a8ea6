import QueryAdvisor.Proofs.JsonTokens
/-!
# Reading back whole documents

The compact text of a document is read back as the document by the strict reader, wherever it
stands, as long as its numbers read back (`ReadsBack`: integers within the 64 bits the reader
keeps exact, floats whose written text reads back) and it nests within the depth the reader has
left. When it nests deeper, reading fails.

Reading takes steps: the reader of a value, of the items of an array and of the members of an
object each spend one per item on their fuel. `ValueReads f`, `ItemsReads f` and `MembersReads f`
say what reading does with `f` steps; `reads_all` proves them together by induction on `f`, each
step from the three at one step less. A result is stated as an `Outcome`: the document and the
place after it when it fits the depth, a fault when it does not. The main statement,
`read_compact_iff`, says that a whole text is read back exactly when the document nests at most
127 deep.
-/

namespace QueryAdvisor.Json

/-! ## Nesting and the text of containers -/

mutual

/-- How deep containers nest in a document: a scalar holds none. -/
def nesting : Json → Nat
  | .array items => nestingItems items + 1
  | .object members => nestingMembers members + 1
  | _ => 0

/-- The deepest nesting among the items of an array. -/
def nestingItems : List Json → Nat
  | [] => 0
  | j :: rest => max (nesting j) (nestingItems rest)

/-- The deepest nesting among the values of an object's members. -/
def nestingMembers : List (String × Json) → Nat
  | [] => 0
  | (_, v) :: rest => max (nesting v) (nestingMembers rest)

end

/-- The text of the items of an array from the first one still to read, with the closing
bracket: a comma stands before each item but the first of the array. -/
def itemsText (first : Bool) : List Json → List Char
  | [] => [']']
  | j :: rest => (if first then [] else [',']) ++ (compact j).toList ++ itemsText false rest

/-- The text of the members of an object from the first one still to read, with the closing
brace. -/
def membersText (first : Bool) : List (String × Json) → List Char
  | [] => ['}']
  | (k, v) :: rest =>
    (if first then [] else [',']) ++ (quote k).toList ++ ':' :: (compact v).toList ++ membersText false rest

/-- The comma before an item but the first. -/
def lead (first : Bool) : List Char := if first then [] else [',']

theorem itemsText_cons (first : Bool) (j : Json) (rest : List Json) :
    itemsText first (j :: rest) = lead first ++ (compact j).toList ++ itemsText false rest := rfl

theorem membersText_cons (first : Bool) (k : String) (v : Json) (rest : List (String × Json)) :
    membersText first ((k, v) :: rest) =
      lead first ++ (quote k).toList ++ ':' :: (compact v).toList ++ membersText false rest := rfl

theorem compactItems_eq (items : List Json) : compactItems items = items.map compact := by
  induction items with
  | nil => rfl
  | cons j rest ih => simp [compactItems, ih]

theorem compactMembers_eq (members : List (String × Json)) :
    compactMembers members = members.map (fun m => quote m.1 ++ ":" ++ compact m.2) := by
  induction members with
  | nil => rfl
  | cons m rest ih => obtain ⟨k, v⟩ := m; simp [compactMembers, ih]

theorem intercalate_comma (a : String) (l : List String) :
    (",".intercalate (a :: l)).toList = a.toList ++ l.flatMap (fun s => ',' :: s.toList) := by
  induction l generalizing a with
  | nil => simp
  | cons b l ih => simp [ih]

theorem itemsText_false (items : List Json) :
    itemsText false items = items.flatMap (fun j => ',' :: (compact j).toList) ++ [']'] := by
  induction items with
  | nil => rfl
  | cons j rest ih => simp [itemsText, ih]

theorem membersText_false (members : List (String × Json)) :
    membersText false members =
      members.flatMap (fun m => ',' :: ((quote m.1).toList ++ ':' :: (compact m.2).toList)) ++ ['}'] := by
  induction members with
  | nil => rfl
  | cons m rest ih => obtain ⟨k, v⟩ := m; simp [membersText, ih]

theorem compact_array_toList (items : List Json) :
    (compact (.array items)).toList = '[' :: itemsText true items := by
  cases items with
  | nil => simp [compact, compactItems, itemsText]
  | cons j rest =>
    rw [compact, compactItems_eq, List.map_cons]
    simp only [String.toList_append, intercalate_comma]
    simp [itemsText, itemsText_false, List.flatMap_map]

theorem compact_object_toList (members : List (String × Json)) :
    (compact (.object members)).toList = '{' :: membersText true members := by
  cases members with
  | nil => simp [compact, compactMembers, membersText]
  | cons m rest =>
    obtain ⟨k, v⟩ := m
    rw [compact, compactMembers_eq, List.map_cons]
    simp only [String.toList_append, intercalate_comma]
    simp [membersText, membersText_false, List.flatMap_map]

theorem itemsText_ne_nil (first : Bool) (items : List Json) : itemsText first items ≠ [] := by
  induction items generalizing first with
  | nil => simp [itemsText]
  | cons j rest ih => simp [itemsText, ih]

theorem membersText_ne_nil (first : Bool) (members : List (String × Json)) : membersText first members ≠ [] := by
  cases members with
  | nil => simp [membersText]
  | cons kv rest => obtain ⟨k, v⟩ := kv; simp [membersText]

/-! ## Blanks, keywords and strings -/

/-- Blanks: space, line feed, tab, carriage return. -/
def IsBlank (x : Char) : Prop := x = ' ' ∨ x = '\n' ∨ x = '\t' ∨ x = '\r'

theorem blanks_of_head {c : Cursor} (h : ∀ x ∈ c.rest.head?, ¬ IsBlank x) : c.blanks = c := by
  obtain ⟨rest, pos, size⟩ := c
  cases rest with
  | nil => rfl
  | cons x t =>
    have hx := h x rfl
    simp only [IsBlank, not_or] at hx
    obtain ⟨h1, h2, h3, h4⟩ := hx
    simp [Cursor.blanks, skipBlanks, h1, h2, h3, h4]

theorem blanks_rest_ne_nil {c : Cursor} {y : Char} {t : List Char} (hc : c.rest = y :: t) (hy : ¬ IsBlank y) :
    c.blanks.rest ≠ [] := by
  rw [blanks_of_head (by simp [hc]; exact hy), hc]
  exact List.cons_ne_nil y t

theorem value_digit {c : Cursor} {y : Char} {t : List Char} (hc : c.rest = y :: t) (hy : y.isDigit = true)
    (f d : Nat) :
    Cursor.value (f + 1) d c = match c.number false with
      | .ok (n, after) => .ok (.number n, .mk c.pos after.pos [] [], after)
      | .error e => .error e := by
  have hb : ¬ IsBlank y := by
    intro h
    rcases h with rfl | rfl | rfl | rfl <;> simp at hy
  rw [Cursor.value]
  simp only [blanks_of_head (c := c) (by simp [hc]; exact hb), hc]
  split
  all_goals try (simp at hy)
  rw [if_pos hy]
  rcases c.number false with e | ⟨n, after⟩ <;> rfl

theorem value_minus {c : Cursor} {t : List Char} (hc : c.rest = '-' :: t) (f d : Nat) :
    Cursor.value (f + 1) d c = match c.advance.number true with
      | .ok (n, after) => .ok (.number n, .mk c.pos after.pos [] [], after)
      | .error e => .error e := by
  rw [Cursor.value]
  simp only [blanks_of_head (c := c) (by simp [hc, IsBlank]), hc]
  rcases c.advance.number true with e | ⟨n, after⟩ <;> rfl

@[simp] theorem keyword_nil (c : Cursor) : c.keyword [] = .ok c := rfl

@[simp] theorem keyword_cons_self (k : Char) (ks t : List Char) (p m : Nat) :
    (Cursor.mk (k :: t) p m).keyword (k :: ks) = (Cursor.mk t (p + k.utf8Size) m).keyword ks := by
  simp [Cursor.keyword, Cursor.advance]

theorem value_keyword {j : Json} (hj : j = .null ∨ j = .bool true ∨ j = .bool false)
    (f d : Nat) (r : List Char) (p m : Nat) :
    ∃ s, Cursor.value (f + 1) d ⟨(compact j).toList ++ r, p, m⟩ =
      .ok (j, s, ⟨r, p + bytes (compact j).toList, m⟩) := by
  rcases hj with rfl | rfl | rfl
  all_goals
    rw [Cursor.value]
    simp [compact, Cursor.blanks, skipBlanks, Cursor.advance, bind, Except.bind, Nat.add_assoc]

theorem value_quote (s : String) (r : List Char) {p m : Nat} (hfit : p + bytes ((quote s).toList ++ r) ≤ m)
    (f d : Nat) :
    ∃ sp, Cursor.value (f + 1) d ⟨(quote s).toList ++ r, p, m⟩ =
      .ok (.string s, sp, ⟨r, p + bytes (quote s).toList, m⟩) := by
  have hs := string_quote s r p m hfit
  rw [quote_toList] at hs ⊢
  rw [Cursor.value]
  simp only [List.cons_append] at hs ⊢
  simp only [blanks_of_head (c := ⟨'"' :: (escaped s.toList ++ ['"'] ++ r), p, m⟩) (by simp [IsBlank])]
  rw [hs]
  exact ⟨_, rfl⟩

/-! ## Numbers -/

/-- The characters of a number's text: digits, signs, the point and the exponent mark. -/
def NumberChar (ch : Char) : Prop := ch.isDigit ∨ ch = '-' ∨ ch = '+' ∨ ch = '.' ∨ ch = 'e'

theorem not_blank_of_numberChar {ch : Char} (h : NumberChar ch) : ¬ IsBlank ch := by
  rintro (rfl | rfl | rfl | rfl) <;> simp [NumberChar] at h

theorem value_eq_number {c after : Cursor} {y : Char} {t : List Char} (hc : c.rest = y :: t)
    (hy : NumberChar y) {f d : Nat} {v : Number} {s : Span}
    (h : Cursor.value (f + 1) d c = .ok (.number v, s, after)) :
    (y.isDigit ∧ c.number false = .ok (v, after)) ∨ (y = '-' ∧ c.advance.number true = .ok (v, after)) := by
  rw [Cursor.value] at h
  simp only [blanks_of_head (c := c) (by simp [hc]; exact not_blank_of_numberChar hy), hc] at h
  split at h
  all_goals try (simp [NumberChar] at hy)
  · right
    refine ⟨rfl, ?_⟩
    cases hres : c.advance.number true with
    | error e => simp [hres, bind, Except.bind] at h
    | ok na =>
      obtain ⟨n, a⟩ := na
      simp only [hres, bind, Except.bind, Except.ok.injEq, Prod.mk.injEq, Json.number.injEq] at h
      rw [h.1, h.2.2]
  · split at h
    · next hd =>
      left
      refine ⟨hd, ?_⟩
      cases hres : c.number false with
      | error e => simp [hres, bind, Except.bind] at h
      | ok na =>
        obtain ⟨n, a⟩ := na
        simp only [hres, bind, Except.bind, Except.ok.injEq, Prod.mk.injEq, Json.number.injEq] at h
        rw [h.1, h.2.2]
    · simp [Cursor.peekFault] at h

/-- A number read alone from a text of number characters takes all of it when only blanks
could follow. -/
theorem rest_nil_of_passes {c after : Cursor} (hc : ∀ ch ∈ c.rest, NumberChar ch) (hp : c.Passes after)
    (hb : after.blanks.rest = []) : after.rest = [] := by
  obtain ⟨tok, hrest, -, -⟩ := hp
  cases ha : after.rest with
  | nil => rfl
  | cons y t =>
    have hy : NumberChar y := hc y (by rw [hrest, ha]; simp)
    exact absurd hb (blanks_rest_ne_nil ha (not_blank_of_numberChar hy))

theorem numberChar_natText (n : Nat) : ∀ ch ∈ (toString n).toList, NumberChar ch := by
  intro ch h
  left
  simp only [Nat.toString_eq_repr, Nat.toList_repr] at h
  exact Nat.isDigit_of_mem_toDigits (by decide) (by decide) h

theorem numberChar_intText (n : Int) : ∀ ch ∈ (toString n).toList, NumberChar ch := by
  intro ch h
  cases n with
  | ofNat k => exact numberChar_natText k ch h
  | negSucc k =>
    simp only [toString, Int.repr, String.toList_append, List.mem_append] at h
    rcases h with h | h
    · simp at h
      exact Or.inr (Or.inl h)
    · exact numberChar_natText (k + 1) ch h

theorem numberChar_zeros (n : Nat) : ∀ ch ∈ (Decimal.zeros n).toList, NumberChar ch := by
  intro ch h
  simp only [Decimal.zeros, String.toList_ofList, List.mem_replicate] at h
  rw [h.2]
  exact Or.inl rfl

theorem numberChar_positional (ds : String) (e : Int) (hds : ∀ ch ∈ ds.toList, NumberChar ch) :
    ∀ ch ∈ (Decimal.positional ds e true).toList, NumberChar ch := by
  intro ch h
  unfold Decimal.positional at h
  by_cases he : 0 ≤ e
  · rw [if_pos he, if_pos rfl] at h
    simp only [String.toList_append, List.mem_append] at h
    rcases h with (h | h) | h
    · exact hds ch h
    · exact numberChar_zeros _ ch h
    · simp at h
      rcases h with rfl | rfl <;> simp [NumberChar]
  · rw [if_neg he] at h
    by_cases hcut : (-e).toNat < ds.length
    · rw [if_pos hcut] at h
      simp only [String.toList_append, List.mem_append, String.toList_ofList] at h
      rcases h with (h | h) | h
      · exact hds ch (List.mem_of_mem_take h)
      · simp at h
        simp [h, NumberChar]
      · exact hds ch (List.mem_of_mem_drop h)
    · rw [if_neg hcut] at h
      simp only [String.toList_append, List.mem_append] at h
      rcases h with (h | h) | h
      · simp at h
        rcases h with rfl | rfl <;> simp [NumberChar]
      · exact numberChar_zeros _ ch h
      · exact hds ch h

theorem numberChar_scientific (ds : String) (e : Int) (hds : ∀ ch ∈ ds.toList, NumberChar ch) :
    ∀ ch ∈ (Decimal.scientific ds e true).toList, NumberChar ch := by
  intro ch h
  unfold Decimal.scientific at h
  simp only [String.toList_append, List.mem_append, String.toList_ofList] at h
  rcases h with ((((h | h) | h) | h) | h)
  · exact hds ch (List.mem_of_mem_take h)
  · split_ifs at h
    · simp at h
    · simp only [String.toList_append, List.mem_append, String.toList_ofList] at h
      rcases h with h | h
      · simp at h
        simp [h, NumberChar]
      · exact hds ch (List.mem_of_mem_drop h)
  · simp at h
    simp [h, NumberChar]
  · split_ifs at h
    · simp at h
      simp [h, NumberChar]
    · simp at h
  · exact numberChar_intText _ ch h

theorem numberChar_write (x : Float) (h : ∃ neg b, Decimal.Double.ofFloat x = .finite neg b) :
    ∀ ch ∈ (Decimal.Layout.json.write x).toList, NumberChar ch := by
  obtain ⟨neg, b, hx⟩ := h
  intro ch hch
  simp only [Decimal.Layout.write, hx, String.toList_append, List.mem_append] at hch
  rcases hch with h | h
  · split_ifs at h
    · simp at h
      simp [h, NumberChar]
    · simp at h
  · unfold Decimal.Layout.decimal at h
    have hds := numberChar_natText (b.shortest Decimal.Layout.json.tie).digits
    dsimp only at h
    split at h
    · exact numberChar_positional _ _ hds ch h
    · exact numberChar_scientific _ _ hds ch h

theorem numberChar_write_of_reads {x : Float}
    (hx : read (Decimal.Layout.json.write x) = .ok (.number (.float x))) :
    ∀ ch ∈ (Decimal.Layout.json.write x).toList, NumberChar ch := by
  cases hd : Decimal.Double.ofFloat x with
  | finite neg b => exact numberChar_write x ⟨neg, b, hd⟩
  | infinite neg =>
    have hnull : Decimal.Layout.json.write x = "null" := by
      simp [Decimal.Layout.write, hd, Decimal.Layout.json]
    rw [hnull, show read "null" = .ok .null by rfl] at hx
    simp at hx
  | nan =>
    have hnull : Decimal.Layout.json.write x = "null" := by
      simp [Decimal.Layout.write, hd, Decimal.Layout.json]
    rw [hnull, show read "null" = .ok .null by rfl] at hx
    simp at hx

/-- A whole-document read succeeds exactly when the value read from the start leaves only
blanks behind. -/
theorem read_eq_ok_iff {text : String} {j : Json} :
    read text = .ok j ↔ ∃ s after, Cursor.value (2 * text.length + 2) 128
      ⟨text.toList, 0, text.utf8ByteSize⟩ = .ok (j, s, after) ∧ after.blanks.rest = [] := by
  unfold read readWithSpans
  dsimp only
  cases hv : Cursor.value (2 * text.length + 2) 128 ⟨text.toList, 0, text.utf8ByteSize⟩ with
  | error e => simp [Except.map]
  | ok res =>
    obtain ⟨j', s, after⟩ := res
    dsimp only
    split
    · rename_i h
      simp only [Except.map, Except.ok.injEq]
      exact ⟨fun hj => ⟨s, after, by rw [hj], h⟩, fun ⟨_, _, hv', _⟩ => by cases hv'; rfl⟩
    · rename_i h
      simpa [Except.map, Cursor.peekFault] using fun _ => h

/-- A number read that takes a whole text of number characters, leaving only blanks, reads
the same token at any place and before any end a number cannot run on into. -/
theorem number_whole {t r : List Char} {q N : Nat} {neg : Bool} {v : Number} {after : Cursor}
    (hall : ∀ ch ∈ t, NumberChar ch) (h : (Cursor.mk t q N).number neg = .ok (v, after))
    (hb : after.blanks.rest = []) (hr : NumEnd r) (k m : Nat) :
    (Cursor.mk (t ++ r) (k + q) m).number neg = .ok (v, ⟨r, k + q + bytes t, m⟩) := by
  have hp := number_passes h
  have hnil := rest_nil_of_passes hall hp hb
  obtain ⟨tok, ht, hpos, -⟩ := hp
  simp only [hnil, List.append_nil] at ht
  dsimp only at hpos
  subst ht
  have hs := number_shift (k := k) (n := m) hr h
  have hc : (Cursor.mk t q N).shift r k m = ⟨t ++ r, k + q, m⟩ := by
    simp only [Cursor.shift, Cursor.mk.injEq, true_and, and_true]; omega
  have hd : after.shift r k m = ⟨r, k + q + bytes t, m⟩ := by
    simp only [Cursor.shift, hnil, hpos, List.nil_append, Cursor.mk.injEq, true_and, and_true]; omega
  rwa [hc, hd] at hs

/-- A float whose written text reads back as itself reads back wherever it stands, before
any end a number cannot run on into. -/
theorem value_floatText {x : Float} (hx : read (Decimal.Layout.json.write x) = .ok (.number (.float x)))
    {r : List Char} (hr : NumEnd r) (p m f d : Nat) :
    ∃ s, Cursor.value (f + 1) d ⟨(Decimal.Layout.json.write x).toList ++ r, p, m⟩ =
      .ok (.number (.float x), s, ⟨r, p + bytes (Decimal.Layout.json.write x).toList, m⟩) := by
  have hall := numberChar_write_of_reads hx
  obtain ⟨s0, after, hv, hb⟩ := read_eq_ok_iff.mp hx
  generalize Decimal.Layout.json.write x = w at hall hv ⊢
  cases ht : w.toList with
  | nil =>
    rw [ht] at hv
    simp [Cursor.value, Cursor.blanks, skipBlanks, Cursor.peekFault] at hv
  | cons y t =>
    have hy := hall y (by simp [ht])
    rw [ht] at hall hv
    rcases value_eq_number (c := ⟨y :: t, 0, w.utf8ByteSize⟩) rfl hy hv with ⟨hdig, hn⟩ | ⟨rfl, hn⟩
    · have hw := number_whole hall hn hb hr p m
      simp only [Nat.add_zero] at hw
      rw [value_digit (c := ⟨y :: t ++ r, p, m⟩) rfl hdig, hw]
      exact ⟨_, rfl⟩
    · have hn' : (Cursor.mk t 1 w.utf8ByteSize).number true = .ok (.float x, after) := hn
      have hw := number_whole (fun ch h => hall ch (List.mem_cons_of_mem _ h)) hn' hb hr p m
      rw [value_minus (c := ⟨'-' :: t ++ r, p, m⟩) rfl]
      have ha : (Cursor.mk ('-' :: t ++ r) p m).advance = ⟨t ++ r, p + 1, m⟩ := rfl
      have hminus : bytes ('-' :: t) = 1 + bytes t := by rw [bytes_cons]; rfl
      rw [ha, hw, hminus, ← Nat.add_assoc]
      exact ⟨_, rfl⟩

/-- A natural number the reader keeps exact reads as itself before any end a number cannot
run on into. -/
theorem value_natText {n : Nat} (hn : n < Nat.pow 2 64) {r : List Char} (hr : NumEnd r) (f d p m : Nat) :
    ∃ s, Cursor.value (f + 1) d ⟨(toString n).toList ++ r, p, m⟩ =
      .ok (.number (.nat n), s, ⟨r, p + bytes (toString n).toList, m⟩) := by
  obtain ⟨y, t, ht⟩ := List.exists_cons_of_ne_nil (show (toString n).toList ≠ [] by simp)
  have hy : y.isDigit = true := isDigit_of_mem_natText (by rw [ht]; exact List.mem_cons_self)
  have hnum := number_append hr (number_natText n false p m) m
  rw [value_digit (c := ⟨(toString n).toList ++ r, p, m⟩) (t := t ++ r) (by rw [ht, List.cons_append]) hy, hnum]
  simp only [integerOf, Bool.false_eq_true, if_false, if_pos hn]
  exact ⟨_, rfl⟩

/-- A negative integer the reader keeps exact reads as itself before any end a number cannot
run on into. -/
theorem value_negText {k : Nat} (hk : k + 1 ≤ Nat.pow 2 63) {r : List Char} (hr : NumEnd r) (f d p m : Nat) :
    ∃ s, Cursor.value (f + 1) d ⟨(toString (Int.negSucc k)).toList ++ r, p, m⟩ =
      .ok (.number (.neg (Int.negSucc k)), s, ⟨r, p + bytes (toString (Int.negSucc k)).toList, m⟩) := by
  have htext : (toString (Int.negSucc k)).toList = '-' :: (toString (k + 1)).toList := by
    simp [toString, Int.repr]
  have hnum := number_append hr (number_natText (k + 1) true (p + 1) m) m
  have hadv : (Cursor.mk ('-' :: ((toString (k + 1)).toList ++ r)) p m).advance =
      ⟨(toString (k + 1)).toList ++ r, p + 1, m⟩ := rfl
  rw [htext, List.cons_append, value_minus (c := ⟨_, p, m⟩) rfl, hadv, hnum]
  have hint : integerOf true (k + 1) = .neg (Int.negSucc k) := by
    simp only [integerOf, if_true, Nat.add_one_ne_zero, if_false, if_pos hk]
    rfl
  rw [hint, bytes_cons, show '-'.utf8Size = 1 from rfl, ← Nat.add_assoc]
  exact ⟨_, rfl⟩

theorem numEnd_itemsText (items : List Json) (r : List Char) : NumEnd (itemsText false items ++ r) := by
  cases items <;> simp [itemsText, NumEnd]

theorem numEnd_membersText (members : List (String × Json)) (r : List Char) :
    NumEnd (membersText false members ++ r) := by
  cases members with
  | nil => simp [membersText, NumEnd]
  | cons m rest => obtain ⟨k, v⟩ := m; simp [membersText, NumEnd]

/-! ## Documents that read back -/

/-- Numbers whose text reads back as themselves: integers the reader keeps exact, and floats
whose written text reads back. -/
def Number.ReadsBack : Number → Prop
  | .nat n => n < Nat.pow 2 64
  | .neg n => -(Nat.pow 2 63 : Int) ≤ n ∧ n < 0
  | .float x => read (Decimal.Layout.json.write x) = .ok (.number (.float x))

mutual

/-- Documents whose numbers all read back as themselves. -/
def ReadsBack : Json → Prop
  | .number n => n.ReadsBack
  | .array items => ItemsReadBack items
  | .object members => MembersReadBack members
  | _ => True

/-- Items that all read back as themselves. -/
def ItemsReadBack : List Json → Prop
  | [] => True
  | j :: rest => ReadsBack j ∧ ItemsReadBack rest

/-- Members whose values all read back as themselves. -/
def MembersReadBack : List (String × Json) → Prop
  | [] => True
  | (_, v) :: rest => ReadsBack v ∧ MembersReadBack rest

end

/-- A character that can open a value: no blank, separator or closing bracket. -/
def Opens (x : Char) : Prop := ¬ IsBlank x ∧ x ≠ ',' ∧ x ≠ ']' ∧ x ≠ '}'

theorem opens_of_numberChar {x : Char} (h : NumberChar x) : Opens x := by
  refine ⟨not_blank_of_numberChar h, ?_, ?_, ?_⟩ <;> rintro rfl <;> simp [NumberChar] at h

theorem floatText_cons {x : Float} (hx : read (Decimal.Layout.json.write x) = .ok (.number (.float x))) :
    ∃ y t, (Decimal.Layout.json.write x).toList = y :: t ∧ NumberChar y := by
  have hall := numberChar_write_of_reads hx
  obtain ⟨s0, after, hv, -⟩ := read_eq_ok_iff.mp hx
  cases ht : (Decimal.Layout.json.write x).toList with
  | nil =>
    rw [ht] at hv
    simp [Cursor.value, Cursor.blanks, skipBlanks, Cursor.peekFault] at hv
  | cons y t => exact ⟨y, t, rfl, hall y (by simp [ht])⟩

theorem compact_head {j : Json} (hj : ReadsBack j) : ∃ x t, (compact j).toList = x :: t ∧ Opens x := by
  cases j with
  | null => exact ⟨'n', ['u', 'l', 'l'], by simp [compact], by simp [Opens, IsBlank]⟩
  | bool b =>
    cases b
    · exact ⟨'f', ['a', 'l', 's', 'e'], by simp [compact], by simp [Opens, IsBlank]⟩
    · exact ⟨'t', ['r', 'u', 'e'], by simp [compact], by simp [Opens, IsBlank]⟩
  | number n =>
    cases n with
    | nat n =>
      obtain ⟨y, t, ht⟩ := List.exists_cons_of_ne_nil (show (toString n).toList ≠ [] by simp)
      have hy : y.isDigit = true := isDigit_of_mem_natText (by rw [ht]; exact List.mem_cons_self)
      exact ⟨y, t, ht, opens_of_numberChar (Or.inl hy)⟩
    | neg n =>
      obtain ⟨k, rfl⟩ := Int.eq_negSucc_of_lt_zero hj.2
      exact ⟨'-', (toString (k + 1)).toList, by simp [compact, Number.text, toString, Int.repr],
        by simp [Opens, IsBlank]⟩
    | float x =>
      obtain ⟨y, t, ht, hy⟩ := floatText_cons hj
      exact ⟨y, t, ht, opens_of_numberChar hy⟩
  | string s => exact ⟨'"', _, quote_toList s, by simp [Opens, IsBlank]⟩
  | array items => exact ⟨'[', _, compact_array_toList items, by simp [Opens, IsBlank]⟩
  | object members => exact ⟨'{', _, compact_object_toList members, by simp [Opens, IsBlank]⟩

/-! ## Outcomes -/

/-- What a reader gives on a text: a result that `good` accepts when what the text holds nests
within the depth left (`fits`), and a fault when it does not. -/
def Outcome {ε γ : Type} (fits : Prop) (good : γ → Prop) (res : Except ε γ) : Prop :=
  (fits → ∃ x, res = .ok x ∧ good x) ∧ (¬ fits → ∃ e, res = .error e)

namespace Outcome

variable {ε γ δ : Type} {fits fits' : Prop} {good : γ → Prop} {res : Except ε γ}

theorem of_ok {x : γ} (hres : res = .ok x) (hfits : fits) (hx : good x) : Outcome fits good res :=
  ⟨fun _ => ⟨x, hres, hx⟩, fun h => absurd hfits h⟩

theorem of_error {e : ε} (hres : res = .error e) (hfits : ¬ fits) : Outcome fits good res :=
  ⟨fun h => absurd h hfits, fun _ => ⟨e, hres⟩⟩

theorem cases (h : Outcome fits good res) :
    (fits ∧ ∃ x, res = .ok x ∧ good x) ∨ (¬ fits ∧ ∃ e, res = .error e) := by
  by_cases hf : fits
  · exact Or.inl ⟨hf, h.1 hf⟩
  · exact Or.inr ⟨hf, h.2 hf⟩

theorem iff (h : Outcome fits good res) (hiff : fits ↔ fits') : Outcome fits' good res :=
  ⟨fun hf => h.1 (hiff.mpr hf), fun hf => h.2 (mt hiff.mp hf)⟩

theorem mono {good' : γ → Prop}
    (h : Outcome fits good res) (hg : ∀ x, good x → good' x) : Outcome fits good' res :=
  ⟨fun hf => (h.1 hf).imp fun x hx => ⟨hx.1, hg x hx.2⟩, h.2⟩

theorem bind_ok {good' : δ → Prop} {g : γ → δ} (h : Outcome fits good res)
    (hg : ∀ x, good x → good' (g x)) : Outcome fits good' (res >>= fun x => .ok (g x)) := by
  rcases h.cases with ⟨hf, x, hres, hx⟩ | ⟨hf, e, hres⟩
  · exact of_ok (by rw [hres]; rfl) hf (hg x hx)
  · exact of_error (by rw [hres]; rfl) hf

theorem eq_ok_iff {x : γ} (h : Outcome fits (· = x) res) : res = .ok x ↔ fits := by
  rcases h.cases with ⟨hf, y, hres, rfl⟩ | ⟨hf, e, hres⟩
  · exact ⟨fun _ => hf, fun _ => hres⟩
  · rw [hres]
    exact ⟨fun h => absurd h (by simp), fun h => absurd h hf⟩

end Outcome

/-! ## One step of the readers -/

theorem items_close {c0 : Cursor} {t : List Char} (hc : c0.rest = ']' :: t) (f d : Nat) (first : Bool)
    (acc : List Json) (spans : List Span) :
    Cursor.items (f + 1) d c0 first acc spans = .ok (acc.reverse, spans.reverse, c0.advance) := by
  have hb : c0.blanks = c0 := blanks_of_head (by simp [hc, IsBlank])
  rw [Cursor.items]
  simp [hb, hc]

/-- What the reader of an array's items does with the result of reading one more item. -/
def itemsAfter (f d : Nat) (acc : List Json) (spans : List Span) :
    Except SyntaxError (Json × Span × Cursor) → Except SyntaxError (List Json × List Span × Cursor)
  | .error e => .error e
  | .ok (j, s, after) => Cursor.items f d after false (j :: acc) (s :: spans)

theorem items_first {c0 : Cursor} {y : Char} {t : List Char} (hc : c0.rest = y :: t) (hy : Opens y)
    (f d : Nat) (acc : List Json) (spans : List Span) :
    Cursor.items (f + 1) d c0 true acc spans = itemsAfter f d acc spans (Cursor.value f d c0) := by
  have hb : c0.blanks = c0 := blanks_of_head (by simp [hc]; exact hy.1)
  rw [Cursor.items]
  simp only [hb, hc]
  split
  · simp at *
  · next heq => exact absurd (List.cons.inj heq).1 hy.2.2.1
  · simp only [Bool.not_true, Bool.and_false, Bool.false_eq_true, if_false, if_true]
    rfl

theorem items_comma {c : Cursor} {y : Char} {t : List Char} (hc : c.rest = ',' :: y :: t) (hy : Opens y)
    (f d : Nat) (acc : List Json) (spans : List Span) :
    Cursor.items (f + 1) d c false acc spans = itemsAfter f d acc spans (Cursor.value f d c.advance) := by
  have hb : c.blanks = c := blanks_of_head (by simp [hc, IsBlank])
  have hb1 : c.advance.blanks = c.advance := blanks_of_head (by simp [Cursor.advance, hc]; exact hy.1)
  have hadv : c.advance.rest = y :: t := by simp [Cursor.advance, hc]
  rw [Cursor.items]
  simp only [hb, hc, hb1, hadv]
  split
  · next heq => simp at heq
  · next heq => simp at heq
  · next heq =>
    obtain ⟨rfl, -⟩ := List.cons.inj heq
    simp only [decide_true, Bool.not_false, Bool.and_self, if_true]
    split
    · next heq' =>
      split at heq'
      · simp at *
      · next heq'' => exact absurd (List.cons.inj heq'').1 hy.2.2.1
      · simp at heq'
    · next heq' =>
      split at heq'
      · simp at *
      · next heq'' => exact absurd (List.cons.inj heq'').1 hy.2.2.1
      · cases heq'
        rfl

theorem members_close {c0 : Cursor} {t : List Char} (hc : c0.rest = '}' :: t) (f d : Nat) (first : Bool)
    (acc : List (String × Json)) (keys : List Nat) (spans : List Span) :
    Cursor.members (f + 1) d c0 first acc keys spans =
      .ok (acc.reverse, keys.reverse, spans.reverse, c0.advance) := by
  have hb : c0.blanks = c0 := blanks_of_head (by simp [hc, IsBlank])
  rw [Cursor.members]
  simp [hb, hc]

/-- What the reader of an object's members does with the result of reading the value of the
key `k`, which stands at `pos`. -/
def membersAfter (f d : Nat) (k : String) (pos : Nat) (acc : List (String × Json)) (keys : List Nat)
    (spans : List Span) :
    Except SyntaxError (Json × Span × Cursor) →
      Except SyntaxError (List (String × Json) × List Nat × List Span × Cursor)
  | .error e => .error e
  | .ok (j, s, after) => Cursor.members f d after false ((k, j) :: acc) (pos :: keys) (s :: spans)

theorem members_first {c0 a : Cursor} {t u : List Char} {k : String} (hc : c0.rest = '"' :: t)
    (hstr : c0.advance.string = .ok (k, a)) (ha : a.rest = ':' :: u)
    (f d : Nat) (acc : List (String × Json)) (keys : List Nat) (spans : List Span) :
    Cursor.members (f + 1) d c0 true acc keys spans =
      membersAfter f d k a.pos acc keys spans (Cursor.value f d a.advance) := by
  have hb : c0.blanks = c0 := blanks_of_head (by simp [hc, IsBlank])
  have hab : a.blanks = a := blanks_of_head (by simp [ha, IsBlank])
  rw [Cursor.members]
  simp [hb, hc, hstr, hab, ha]
  rfl

theorem members_comma {c a : Cursor} {t u : List Char} {k : String} (hc : c.rest = ',' :: '"' :: t)
    (hstr : c.advance.advance.string = .ok (k, a)) (ha : a.rest = ':' :: u)
    (f d : Nat) (acc : List (String × Json)) (keys : List Nat) (spans : List Span) :
    Cursor.members (f + 1) d c false acc keys spans =
      membersAfter f d k a.pos acc keys spans (Cursor.value f d a.advance) := by
  have hb : c.blanks = c := blanks_of_head (by simp [hc, IsBlank])
  have hb1 : c.advance.blanks = c.advance := blanks_of_head (by simp [Cursor.advance, hc, IsBlank])
  have hadv : c.advance.rest = '"' :: t := by simp [Cursor.advance, hc]
  have hab : a.blanks = a := blanks_of_head (by simp [ha, IsBlank])
  rw [Cursor.members]
  simp [hb, hc, hb1, hadv, hstr, hab, ha]
  rfl

theorem items_step {j : Json} (hj : ReadsBack j) (first : Bool) (rest : List Json) (r : List Char) (p m : Nat)
    (f d : Nat) (acc : List Json) (spans : List Span) :
    Cursor.items (f + 1) d ⟨itemsText first (j :: rest) ++ r, p, m⟩ first acc spans =
      itemsAfter f d acc spans
        (Cursor.value f d ⟨(compact j).toList ++ (itemsText false rest ++ r), p + bytes (lead first), m⟩) := by
  obtain ⟨x, t, hxt, hx⟩ := compact_head hj
  cases first
  · have ha : (Cursor.mk (itemsText false (j :: rest) ++ r) p m).advance =
        ⟨(compact j).toList ++ (itemsText false rest ++ r), p + bytes (lead false), m⟩ := by
      simp [itemsText_cons, lead, Cursor.advance, bytes]
    rw [items_comma (c := ⟨itemsText false (j :: rest) ++ r, p, m⟩) (t := t ++ (itemsText false rest ++ r))
      (by simp [itemsText_cons, lead, hxt]) hx f d acc spans, ha]
  · have hc : (Cursor.mk (itemsText true (j :: rest) ++ r) p m) =
        ⟨(compact j).toList ++ (itemsText false rest ++ r), p + bytes (lead true), m⟩ := by
      simp [itemsText_cons, lead, bytes]
    rw [hc]
    exact items_first (t := t ++ (itemsText false rest ++ r)) (by simp [hxt]) hx f d acc spans

/-- One member of an object's text, after the comma that stands before it unless it comes
first: its key is read, then its value after the colon. -/
theorem members_step (first : Bool) (k : String) (v : Json) (rest : List (String × Json)) (r : List Char)
    {p m : Nat} (hfit : p + bytes (membersText first ((k, v) :: rest) ++ r) ≤ m)
    (f d : Nat) (acc : List (String × Json)) (keys : List Nat) (spans : List Span) :
    Cursor.members (f + 1) d ⟨membersText first ((k, v) :: rest) ++ r, p, m⟩ first acc keys spans =
      membersAfter f d k (p + bytes (lead first) + bytes (quote k).toList) acc keys spans
        (Cursor.value f d ⟨(compact v).toList ++ (membersText false rest ++ r),
          p + bytes (lead first) + bytes (quote k).toList + 1, m⟩) := by
  have hkey : (Cursor.mk ((quote k).toList ++ (':' :: (compact v).toList ++ membersText false rest ++ r))
      (p + bytes (lead first)) m).advance.string =
      .ok (k, ⟨':' :: ((compact v).toList ++ (membersText false rest ++ r)),
        p + bytes (lead first) + bytes (quote k).toList, m⟩) := by
    rw [string_quote k _ _ m (by simp [membersText_cons, Char.utf8Size] at hfit ⊢; omega)]
    simp
  cases first
  · have hadv : (Cursor.mk (membersText false ((k, v) :: rest) ++ r) p m).advance =
        ⟨(quote k).toList ++ (':' :: (compact v).toList ++ membersText false rest ++ r), p + bytes (lead false), m⟩ := by
      simp [membersText_cons, lead, Cursor.advance, bytes]
    rw [members_comma (c := ⟨membersText false ((k, v) :: rest) ++ r, p, m⟩)
      (t := escaped k.toList ++ '"' :: ':' :: ((compact v).toList ++ (membersText false rest ++ r)))
      (by simp [membersText_cons, lead, quote_toList]) (by rw [hadv]; exact hkey) rfl]
    rfl
  · have hc0 : Cursor.mk (membersText true ((k, v) :: rest) ++ r) p m =
        ⟨(quote k).toList ++ (':' :: (compact v).toList ++ membersText false rest ++ r), p + bytes (lead true), m⟩ := by
      simp [membersText_cons, lead, bytes]
    rw [hc0, members_first (t := escaped k.toList ++ '"' :: ':' :: ((compact v).toList ++ (membersText false rest ++ r)))
      (by simp [quote_toList]) hkey rfl]
    rfl

/-! ## Reading with enough steps -/

/-- Reading a document with `f` steps: the text of a document that reads back and needs at
most `f` steps is read as the document, with the place after it, when it nests within the
depth, and fails when it does not. -/
def ValueReads (f : Nat) : Prop :=
  ∀ (j : Json) (d : Nat) (r : List Char) (p m : Nat), ReadsBack j → NumEnd r → 0 < d →
    p + bytes ((compact j).toList ++ r) ≤ m → (compact j).toList.length ≤ f →
    Outcome (nesting j < d) (fun x => x.1 = j ∧ x.2.2 = ⟨r, p + bytes (compact j).toList, m⟩)
      (Cursor.value f d ⟨(compact j).toList ++ r, p, m⟩)

/-- Reading the items of an array with `f` steps, from the first one still to read, after
the items `acc` already read. -/
def ItemsReads (f : Nat) : Prop :=
  ∀ (first : Bool) (items acc : List Json) (spans : List Span) (d : Nat) (r : List Char) (p m : Nat),
    ItemsReadBack items → 0 < d → p + bytes (itemsText first items ++ r) ≤ m →
    (itemsText first items).length ≤ f →
    Outcome (nestingItems items < d)
      (fun x => x.1 = acc.reverse ++ items ∧ x.2.2 = ⟨r, p + bytes (itemsText first items), m⟩)
      (Cursor.items f d ⟨itemsText first items ++ r, p, m⟩ first acc spans)

/-- Reading the members of an object with `f` steps, from the first one still to read, after
the members `acc` already read. -/
def MembersReads (f : Nat) : Prop :=
  ∀ (first : Bool) (members acc : List (String × Json)) (keys : List Nat) (spans : List Span) (d : Nat)
    (r : List Char) (p m : Nat),
    MembersReadBack members → 0 < d → p + bytes (membersText first members ++ r) ≤ m →
    (membersText first members).length ≤ f →
    Outcome (nestingMembers members < d)
      (fun x => x.1 = acc.reverse ++ members ∧ x.2.2.2 = ⟨r, p + bytes (membersText first members), m⟩)
      (Cursor.members f d ⟨membersText first members ++ r, p, m⟩ first acc keys spans)

theorem value_array {f : Nat} (hi : ItemsReads f) {items : List Json} (hj : ItemsReadBack items)
    {d : Nat} {r : List Char} {p m : Nat} (hd : 0 < d)
    (hfit : p + bytes ((compact (.array items)).toList ++ r) ≤ m)
    (hlen : (compact (.array items)).toList.length ≤ f + 1) :
    Outcome (nesting (.array items) < d)
      (fun x => x.1 = .array items ∧ x.2.2 = ⟨r, p + bytes (compact (.array items)).toList, m⟩)
      (Cursor.value (f + 1) d ⟨(compact (.array items)).toList ++ r, p, m⟩) := by
  rw [compact_array_toList] at hfit hlen ⊢
  rw [Cursor.value]
  simp only [List.cons_append, blanks_of_head (c := ⟨'[' :: (itemsText true items ++ r), p, m⟩) (by simp [IsBlank])]
  split_ifs with h1
  · exact Outcome.of_error rfl (by simp [nesting]; omega)
  · have hadv : (Cursor.mk ('[' :: (itemsText true items ++ r)) p m).advance = ⟨itemsText true items ++ r, p + 1, m⟩ := rfl
    rw [hadv]
    simp only [List.length_cons, bytes_cons, bytes_append, show '['.utf8Size = 1 from rfl] at hfit hlen
    have hin := hi true items [] [] (d - 1) r (p + 1) m hj (by omega) (by rw [bytes_append]; omega) (by omega)
    refine (Outcome.bind_ok hin ?_).iff ?_
    · rintro ⟨xs, ss, a⟩ ⟨h1, h2⟩
      simp only [List.reverse_nil, List.nil_append] at h1
      subst h1 h2
      simp [bytes_cons, Nat.add_assoc, Char.utf8Size]
    · simp [nesting]; omega

theorem value_object {f : Nat} (hm : MembersReads f) {members : List (String × Json)}
    (hj : MembersReadBack members) {d : Nat} {r : List Char} {p m : Nat} (hd : 0 < d)
    (hfit : p + bytes ((compact (.object members)).toList ++ r) ≤ m)
    (hlen : (compact (.object members)).toList.length ≤ f + 1) :
    Outcome (nesting (.object members) < d)
      (fun x => x.1 = .object members ∧ x.2.2 = ⟨r, p + bytes (compact (.object members)).toList, m⟩)
      (Cursor.value (f + 1) d ⟨(compact (.object members)).toList ++ r, p, m⟩) := by
  rw [compact_object_toList] at hfit hlen ⊢
  rw [Cursor.value]
  simp only [List.cons_append,
    blanks_of_head (c := ⟨'{' :: (membersText true members ++ r), p, m⟩) (by simp [IsBlank])]
  split_ifs with h1
  · exact Outcome.of_error rfl (by simp [nesting]; omega)
  · have hadv : (Cursor.mk ('{' :: (membersText true members ++ r)) p m).advance =
        ⟨membersText true members ++ r, p + 1, m⟩ := rfl
    rw [hadv]
    simp only [List.length_cons, bytes_cons, bytes_append, show '{'.utf8Size = 1 from rfl] at hfit hlen
    have hin := hm true members [] [] [] (d - 1) r (p + 1) m hj (by omega) (by rw [bytes_append]; omega)
      (by omega)
    refine (Outcome.bind_ok hin ?_).iff ?_
    · rintro ⟨xs, ks, ss, a⟩ ⟨h1, h2⟩
      simp only [List.reverse_nil, List.nil_append] at h1
      subst h1 h2
      simp [bytes_cons, Nat.add_assoc, Char.utf8Size]
    · simp [nesting]; omega

theorem valueReads_succ {f : Nat} (hi : ItemsReads f) (hm : MembersReads f) : ValueReads (f + 1) := by
  intro j d r p m hj hr hd hfit hlen
  have hleaf : nesting j = 0 → nesting j < d := fun h => by omega
  cases j with
  | null =>
    obtain ⟨s, hs⟩ := value_keyword (Or.inl rfl) f d r p m
    exact Outcome.of_ok hs (hleaf rfl) ⟨rfl, rfl⟩
  | bool b =>
    obtain ⟨s, hs⟩ := value_keyword (j := .bool b) (by cases b <;> simp) f d r p m
    exact Outcome.of_ok hs (hleaf rfl) ⟨rfl, rfl⟩
  | number n =>
    cases n with
    | nat n =>
      obtain ⟨s, hs⟩ := value_natText hj hr f d p m
      exact Outcome.of_ok hs (hleaf rfl) ⟨rfl, rfl⟩
    | neg n =>
      obtain ⟨k, rfl⟩ := Int.eq_negSucc_of_lt_zero hj.2
      have hk : k + 1 ≤ Nat.pow 2 63 := by
        have := hj.1
        rw [Int.negSucc_eq] at this
        omega
      obtain ⟨s, hs⟩ := value_negText hk hr f d p m
      exact Outcome.of_ok hs (hleaf rfl) ⟨rfl, rfl⟩
    | float x =>
      obtain ⟨s, hs⟩ := value_floatText hj hr p m f d
      exact Outcome.of_ok hs (hleaf rfl) ⟨rfl, rfl⟩
  | string s =>
    obtain ⟨sp, hs⟩ := value_quote s r hfit f d
    exact Outcome.of_ok hs (hleaf rfl) ⟨rfl, rfl⟩
  | array items => exact value_array hi hj hd hfit hlen
  | object members => exact value_object hm hj hd hfit hlen

theorem itemsReads_succ {f : Nat} (hv : ValueReads f) (hi : ItemsReads f) : ItemsReads (f + 1) := by
  intro first items acc spans d r p m hj hd hfit hlen
  cases items with
  | nil =>
    simp only [itemsText, List.singleton_append] at hfit hlen ⊢
    rw [items_close rfl]
    exact Outcome.of_ok rfl (by simp [nestingItems]; omega) ⟨by simp, by simp [Cursor.advance, bytes, Char.utf8Size]⟩
  | cons j rest =>
    obtain ⟨hjr, hrest⟩ := hj
    obtain ⟨x, t, hxt, -⟩ := compact_head hjr
    have hlen' : (lead first).length + (compact j).toList.length + (itemsText false rest).length ≤ f + 1 := by
      simpa [itemsText_cons, Nat.add_assoc] using hlen
    have hfit' : p + bytes (lead first) + bytes (compact j).toList + bytes (itemsText false rest) + bytes r ≤ m := by
      simpa [itemsText_cons, Nat.add_assoc] using hfit
    have hrest_pos : 0 < (itemsText false rest).length := by cases rest <;> simp [itemsText]
    have hj_pos : 0 < (compact j).toList.length := by simp [hxt]
    rw [items_step hjr first rest r p m f d acc spans]
    have hval := hv j d (itemsText false rest ++ r) (p + bytes (lead first)) m hjr (numEnd_itemsText rest r) hd
      (by simp only [bytes_append]; omega) (by omega)
    rcases hval.cases with ⟨hf, ⟨j', s, a⟩, hres, h1, h2⟩ | ⟨hf, e, hres⟩
    · dsimp only at h1 h2
      subst j' a
      rw [hres]
      have hnext := hi false rest (j :: acc) (s :: spans) d r (p + bytes (lead first) + bytes (compact j).toList) m
        hrest hd (by simp only [bytes_append]; omega) (by omega)
      refine (hnext.iff ?_).mono ?_
      · simp only [nestingItems]; omega
      · rintro ⟨xs, ss, b⟩ ⟨h1, h2⟩
        refine ⟨by simpa using h1, ?_⟩
        rw [h2, itemsText_cons]
        simp [Nat.add_assoc]
    · rw [hres]
      exact Outcome.of_error rfl (by simp [nestingItems]; omega)

theorem membersReads_succ {f : Nat} (hv : ValueReads f) (hm : MembersReads f) : MembersReads (f + 1) := by
  intro first members acc keys spans d r p m hj hd hfit hlen
  cases members with
  | nil =>
    simp only [membersText, List.singleton_append] at hfit hlen ⊢
    rw [members_close rfl]
    exact Outcome.of_ok rfl (by simp [nestingMembers]; omega)
      ⟨by simp, by simp [Cursor.advance, bytes, Char.utf8Size]⟩
  | cons kv rest =>
    obtain ⟨k, v⟩ := kv
    obtain ⟨hvr, hrest⟩ := hj
    have hlen' : (lead first).length + (quote k).toList.length + 1 + (compact v).toList.length +
        (membersText false rest).length ≤ f + 1 := by
      simp [membersText_cons] at hlen; omega
    have hfit' : p + bytes (lead first) + bytes (quote k).toList + 1 + bytes (compact v).toList +
        bytes (membersText false rest) + bytes r ≤ m := by
      simp [membersText_cons, Char.utf8Size] at hfit; omega
    have hrest_pos : 0 < (membersText false rest).length := by
      cases rest with
      | nil => simp [membersText]
      | cons m' rest' => obtain ⟨k', v'⟩ := m'; simp [membersText]
    set q := p + bytes (lead first) + bytes (quote k).toList with hq
    rw [members_step first k v rest r hfit f d acc keys spans]
    have hval := hv v d (membersText false rest ++ r) (q + 1) m hvr (numEnd_membersText rest r) hd
      (by simp only [bytes_append]; omega) (by omega)
    rcases hval.cases with ⟨hf, ⟨j', s, a⟩, hres, h1, h2⟩ | ⟨hf, e, hres⟩
    · dsimp only at h1 h2
      subst j' a
      rw [hres]
      have hnext := hm false rest ((k, v) :: acc) (q :: keys) (s :: spans) d r (q + 1 + bytes (compact v).toList) m
        hrest hd (by simp only [bytes_append]; omega) (by omega)
      refine (hnext.iff ?_).mono ?_
      · simp only [nestingMembers]; omega
      · rintro ⟨xs, ks, ss, b⟩ ⟨h1, h2⟩
        refine ⟨by simpa using h1, ?_⟩
        rw [h2, membersText_cons]
        simp [hq, Char.utf8Size]
        omega
    · rw [hres]
      exact Outcome.of_error rfl (by simp [nestingMembers]; omega)

theorem reads_zero : ValueReads 0 ∧ ItemsReads 0 ∧ MembersReads 0 := by
  refine ⟨fun j d r p m hj _ _ _ hlen => ?_, fun first items _ _ _ _ _ _ _ _ _ hlen => ?_,
    fun first members _ _ _ _ _ _ _ _ _ _ hlen => ?_⟩
  · obtain ⟨x, t, hxt, -⟩ := compact_head hj
    simp [hxt] at hlen
  · exact absurd (List.length_eq_zero_iff.mp (by omega)) (itemsText_ne_nil first items)
  · exact absurd (List.length_eq_zero_iff.mp (by omega)) (membersText_ne_nil first members)

/-- **Reading is complete and stops at the nesting limit.** With enough steps, the text of a
document whose numbers read back is read as the document when it nests within the depth, and
fails when it does not; so are the items of an array and the members of an object. -/
theorem reads_all (f : Nat) : ValueReads f ∧ ItemsReads f ∧ MembersReads f := by
  induction f with
  | zero => exact reads_zero
  | succ f ih =>
    obtain ⟨hv, hi, hm⟩ := ih
    exact ⟨valueReads_succ hi hm, itemsReads_succ hv hi, membersReads_succ hv hm⟩

/-- The text of a document at fuel enough for it, read from a place with `d` levels of
nesting left. -/
theorem value_compact {j : Json} (hj : ReadsBack j) {d f : Nat} (hd : 0 < d) {r : List Char} (hr : NumEnd r)
    {p m : Nat} (hfit : p + bytes ((compact j).toList ++ r) ≤ m) (hlen : (compact j).toList.length ≤ f) :
    Outcome (nesting j < d) (fun x => x.1 = j ∧ x.2.2 = ⟨r, p + bytes (compact j).toList, m⟩)
      (Cursor.value f d ⟨(compact j).toList ++ r, p, m⟩) :=
  (reads_all f).1 j d r p m hj hr hd hfit hlen

/-- **Compact text reads back.** A document whose numbers read back is read back from its
compact text exactly when it nests at most 127 deep. -/
theorem read_compact_iff {j : Json} (hj : ReadsBack j) : read (compact j) = .ok j ↔ nesting j < 128 := by
  have hout := value_compact hj (d := 128) (f := 2 * (compact j).length + 2) (by omega) (r := [])
    (by simp [NumEnd]) (p := 0) (m := (compact j).utf8ByteSize)
    (by rw [List.append_nil, utf8ByteSize_eq_bytes]; omega) (by rw [String.length_toList]; omega)
  rw [List.append_nil] at hout
  rw [read_eq_ok_iff]
  constructor
  · rintro ⟨s, after, hv, -⟩
    by_contra hn
    obtain ⟨e, he⟩ := hout.2 hn
    rw [hv] at he
    cases he
  · intro hn
    obtain ⟨⟨j', s, after⟩, hv, h1, h2⟩ := hout.1 hn
    dsimp only at h1 h2
    subst h1 h2
    exact ⟨s, _, hv, rfl⟩

end QueryAdvisor.Json
