import QueryAdvisor.Proofs.JsonDocuments
import QueryAdvisor.Predicate.Json
/-!
# Decoders read back what the encoders write

A literal is written as its kind's name with its content, and read back by `Value.ofJson`; a
predicate is written as an object whose first member names its kind, and read back from its
other members by `Predicate.ofFields`, its operands by the tree decoder `Predicate.ofJsonFuel`.

What reads back depends on leaves the encoders only promise: a float's text, a UUID's, a date's
and a timestamp's. `Value.ReadsBack` and `Predicate.ReadsBack` collect those promises, and
under them every literal and every predicate is read back as itself
(`Value.ofJson_toJson`, `Predicate.ofFields_readField`). The tree decoder spends one level of
fuel on each connective, so `Predicate.ofJsonFuel_toJson` asks for one level of fuel for every
two levels of nesting of the JSON form.
-/

namespace QueryAdvisor.Value

mutual
/-- Literals whose written forms read back as themselves: floats, UUIDs, dates and timestamps
as their writers promise, lists item by item. -/
def ReadsBack : Value → Prop
  | .float x => Json.read (Decimal.Layout.json.write x) = .ok (.number (.float x))
  | .uuid u => Uuid.read u.text = .ok u
  | .date d => Date.read d.text = .ok d
  | .dateTime t => DateTime.read (t.textWith "T") = .ok t
  | .array items => ItemsReadBack items
  | _ => True

/-- Literals that all read back as themselves. -/
def ItemsReadBack : List Value → Prop
  | [] => True
  | v :: rest => ReadsBack v ∧ ItemsReadBack rest
end

theorem ofInt_toInt_readsBack (n : Int64) : (Json.ofInt n.toInt).ReadsBack := by
  have h1 := Int64.le_toInt n
  have h2 := Int64.toInt_lt n
  unfold Json.ofInt
  split
  · exact ⟨by simp; omega, by omega⟩
  · simp only [Json.ReadsBack, Json.Number.ReadsBack]
    have : Nat.pow 2 64 = 18446744073709551616 := rfl
    omega


mutual

theorem toJson_readsBack : ∀ v : Value, v.ReadsBack → (toJson v).ReadsBack
  | .null, _ => trivial
  | .bool _, _ | .decimal _, _ | .string _, _ | .uuid _, _ | .date _, _ | .dateTime _, _ =>
    by simp [toJson, tagged, Json.ReadsBack, Json.MembersReadBack]
  | .int n, _ => by
    simp only [toJson, tagged, Json.ReadsBack, Json.MembersReadBack, and_true]
    exact ofInt_toInt_readsBack n
  | .float x, h => by
    simpa [ReadsBack, toJson, tagged, Json.ofFloat, Json.ReadsBack, Json.MembersReadBack, Json.Number.ReadsBack]
      using h
  | .array items, h => by
    simp only [toJson, tagged, Json.ReadsBack, Json.MembersReadBack, and_true]
    exact toJsonItems_readsBack items h

theorem toJsonItems_readsBack : ∀ items : List Value, ItemsReadBack items → Json.ItemsReadBack (toJsonItems items)
  | [], _ => trivial
  | v :: rest, h => ⟨toJson_readsBack v h.1, toJsonItems_readsBack rest h.2⟩

end

theorem ofJson_tagged_array (items : List Json) (path : List Nat) :
    ofJson (tagged "Array" (.array items)) path = (ofJsonItems items (0 :: path) 0).map .array := by
  rw [tagged, ofJson, show kindNames.idxOf? "Array" = some 9 from rfl]
  rfl

mutual

theorem ofJson_toJson : ∀ v : Value, v.ReadsBack → ∀ path, ofJson (toJson v) path = .ok v
  | .null, _, _ => rfl
  | .bool b, _, _ => by
    rw [toJson]
    unfold ofJson
    rfl
  | .int n, _, _ => by
    rw [toJson]
    unfold ofJson
    simp only [tagged, show kindNames.idxOf? "Int64" = some 2 from rfl, scalarOf, Json.asInt64, Json.asIntIn]
    have h1 := Int64.le_toInt n
    have h2 := Int64.toInt_lt n
    have hpow : Int.pow 2 63 = 2 ^ 63 := rfl
    by_cases hn : n.toInt < 0
    · simp only [Json.ofInt, if_pos hn]
      rw [if_pos (by omega)]
      simp [Except.map]
    · simp only [Json.ofInt, if_neg hn]
      rw [if_pos (by omega)]
      show Except.ok (int (Int64.ofInt ((n.toInt.toNat : Nat) : Int))) = _
      rw [Int.toNat_of_nonneg (by omega), Int64.ofInt_toInt]
  | .float x, _, _ => by
    rw [toJson]
    unfold ofJson
    rfl
  | .decimal t, _, _ => by
    rw [toJson]
    unfold ofJson
    rfl
  | .string t, _, _ => by
    rw [toJson]
    unfold ofJson
    rfl
  | .uuid u, h, _ => by
    rw [toJson]
    unfold ofJson
    simp only [tagged, show kindNames.idxOf? "Uuid" = some 6 from rfl, scalarOf, readText, show Uuid.read u.text = .ok u from h, Except.map]
  | .date d, h, _ => by
    rw [toJson]
    unfold ofJson
    simp only [tagged, show kindNames.idxOf? "Date" = some 7 from rfl, scalarOf, readText, show Date.read d.text = .ok d from h, Except.map]
  | .dateTime t, h, _ => by
    rw [toJson]
    unfold ofJson
    simp only [tagged, show kindNames.idxOf? "DateTime" = some 8 from rfl, scalarOf, readText, show DateTime.read (t.textWith "T") = .ok t from h, Except.map]
  | .array items, h, path => by
    rw [toJson, ofJson_tagged_array, ofJsonItems_toJsonItems items h]
    rfl

theorem ofJsonItems_toJsonItems : ∀ items : List Value, ItemsReadBack items →
    ∀ path i, ofJsonItems (toJsonItems items) path i = .ok items
  | [], _, _, _ => rfl
  | v :: rest, h, path, i => by
    simp only [toJsonItems, ofJsonItems, ofJson_toJson v h.1, ofJsonItems_toJsonItems rest h.2]
    rfl

end

theorem itemsFrom_toJsonItems : ∀ vs : List Value, ItemsReadBack vs →
    ∀ path i, Json.itemsFrom ofJson path i (toJsonItems vs) = .ok vs
  | [], _, _, _ => rfl
  | v :: rest, h, path, i => by
    simp only [toJsonItems, Json.itemsFrom, ofJson_toJson v h.1, itemsFrom_toJsonItems rest h.2]
    rfl

end QueryAdvisor.Value

namespace QueryAdvisor.Predicate

mutual
/-- Predicates whose literals all read back as themselves. -/
def ReadsBack : Predicate → Prop
  | .comparison _ _ v => v.ReadsBack
  | .inList _ vs _ => Value.ItemsReadBack vs
  | .between _ lo hi => lo.ReadsBack ∧ hi.ReadsBack
  | .logical _ children => ListReadsBack children
  | _ => True

/-- Predicates that all read back as themselves. -/
def ListReadsBack : List Predicate → Prop
  | [] => True
  | p :: rest => ReadsBack p ∧ ListReadsBack rest
end

/-- The index of a predicate's kind among `kindNames`. -/
def kindIndex : Predicate → Nat
  | .comparison .. => 0
  | .inList .. => 1
  | .between .. => 2
  | .like .. => 3
  | .nullCheck .. => 4
  | .logical .. => 5
  | .subquery .. => 6
  | .raw _ => 7

/-- The members of a predicate's JSON form after its kind. -/
def fieldsJson (p : Predicate) : List (String × Json) :=
  match toJson p with
  | .object (_ :: rest) => rest
  | _ => []

theorem toJson_eq (p : Predicate) :
    toJson p = .object (("kind", .string (kindNames.getD p.kindIndex "")) :: p.fieldsJson) := by
  cases p <;> rfl

theorem toJsonList_eq (ps : List Predicate) : toJsonList ps = ps.map toJson := by
  induction ps with
  | nil => rfl
  | cons p rest ih => simp [toJsonList, ih]

/-- The fields of a predicate read back as the predicate, when its literals read back and,
for a connective, `children` reads back its operands. -/
theorem ofFields_fieldsJson (children : Json → List Nat → Json.Decoded (List Predicate)) (p : Predicate)
    (hp : p.ReadsBack) (hch : ∀ op cs, p = .logical op cs → ∀ path, children (.array (toJsonList cs)) path = .ok cs)
    (path : List Nat) : ofFields (fieldReader children) p.kindIndex (.inl p.fieldsJson) path = .ok p := by
  cases p with
  | comparison f op v =>
    cases op <;> simp [ofFields, fieldsJson, toJson, kindIndex, Json.readMembers, fieldNames, fieldReader, shape, Fields.need,
      bind, Except.bind, Except.map, Json.asString, FieldValue.text?,
      Value.ofJson_toJson v hp, FieldValue.value?, CompareOp.ofJson, Json.asVariant, CompareOp.symbols,
      CompareOp.symbol, CompareOp.ofIndex, FieldValue.compare?]
  | inList f vs negated =>
    simp [ofFields, fieldsJson, toJson, kindIndex, Json.readMembers, fieldNames, fieldReader, shape, Fields.need,
      bind, Except.bind, Except.map, Json.asString, FieldValue.text?,
      Json.asList, Value.itemsFrom_toJsonItems vs hp, FieldValue.values?, Json.asBool, Fields.flag]
  | between f lo hi =>
    simp [ofFields, fieldsJson, toJson, kindIndex, Json.readMembers, fieldNames, fieldReader, shape, Fields.need,
      bind, Except.bind, Except.map, Json.asString, FieldValue.text?,
      Value.ofJson_toJson lo hp.1, Value.ofJson_toJson hi hp.2, FieldValue.value?]
  | like f pattern negated =>
    simp [ofFields, fieldsJson, toJson, kindIndex, Json.readMembers, fieldNames, fieldReader, shape, Fields.need,
      bind, Except.bind, Except.map, Json.asString, FieldValue.text?, Json.asBool, Fields.flag]
  | nullCheck f isNull =>
    simp [ofFields, fieldsJson, toJson, kindIndex, Json.readMembers, fieldNames, fieldReader, shape, Fields.need,
      bind, Except.bind, Except.map, Json.asString, FieldValue.text?, Json.asBool, FieldValue.flag?]
  | logical op cs =>
    have hnames : Json.numbered Connective.names = [("AND", 0), ("OR", 1), ("NOT", 2)] := rfl
    cases op <;> simp [ofFields, fieldsJson, toJson, kindIndex, Json.readMembers, fieldNames, fieldReader, shape, Fields.need,
      bind, Except.bind, Except.map, hnames, Connective.ofJson, Json.asVariant,
      Connective.keyword, FieldValue.connective?, hch _ cs rfl, FieldValue.children?]
  | subquery f s => simp [ofFields, fieldsJson, toJson, kindIndex, Json.readMembers, fieldNames, fieldReader, shape, Fields.need,
      bind, Except.bind, Except.map, Json.asString, FieldValue.text?]
  | raw s => simp [ofFields, fieldsJson, toJson, kindIndex, Json.readMembers, fieldNames, fieldReader, shape, Fields.need,
      bind, Except.bind, Except.map, Json.asString, FieldValue.text?]

theorem readsBack_of_mem {cs : List Predicate} (h : ListReadsBack cs) {c : Predicate} (hc : c ∈ cs) :
    c.ReadsBack := by
  induction cs with
  | nil => cases hc
  | cons p rest ih =>
    rcases List.mem_cons.mp hc with rfl | hc
    · exact h.1
    · exact ih h.2 hc

theorem fieldsJson_ne_kind (p : Predicate) : ∀ kv ∈ p.fieldsJson, kv.1 ≠ "kind" := by
  cases p <;> simp [fieldsJson, toJson]

theorem kindOf_name (p : Predicate) (nested : Bool) (path : List Nat) :
    kindOf nested (.string (kindNames.getD p.kindIndex "")) path = .ok p.kindIndex := by
  cases p <;> rfl

theorem splitKind_of_ne_kind (nested : Bool) (path : List Nat) (tag : Option Nat) :
    ∀ (members : List (String × Json)) (i : Nat) (rest : List (String × Json)), (∀ kv ∈ members, kv.1 ≠ "kind") →
      splitKind nested path i members tag rest = .ok (tag, rest.reverse ++ members)
  | [], _, _, _ => by simp [splitKind]
  | (k, v) :: more, i, rest, h => by
    have hk : (k == "kind") = false := by simpa using h (k, v) List.mem_cons_self
    simp only [splitKind, hk, Bool.false_eq_true, if_false,
      splitKind_of_ne_kind nested path tag more (i + 1) ((k, v) :: rest) (fun kv hkv => h kv (List.mem_cons_of_mem _ hkv))]
    simp

theorem itemsFrom_map {α : Type} (dec : Json → List Nat → Json.Decoded α) (enc : α → Json) :
    ∀ (xs : List α) (path : List Nat) (i : Nat), (∀ x ∈ xs, ∀ path, dec (enc x) path = .ok x) →
      Json.itemsFrom dec path i (xs.map enc) = .ok xs
  | [], _, _, _ => rfl
  | x :: rest, path, i, h => by
    have hrest := itemsFrom_map dec enc rest path (i + 1) (fun y hy => h y (List.mem_cons_of_mem _ hy))
    simp only [List.map_cons, Json.itemsFrom, h x List.mem_cons_self, bind, Except.bind, hrest]

/-- One level of the tree decoder reads a predicate back, when the level below reads back its
operands. -/
theorem ofJsonFuel_succ {f : Nat} {p : Predicate} (hp : p.ReadsBack)
    (hch : ∀ op cs, p = .logical op cs → ∀ path, Json.asList (ofJsonFuel f true) (.array (toJsonList cs)) path = .ok cs)
    (nested : Bool) (path : List Nat) : ofJsonFuel (f + 1) nested (toJson p) path = .ok p := by
  rw [toJson_eq, ofJsonFuel]
  simp only [splitKind, beq_self_eq_true, if_true, kindOf_name,
    splitKind_of_ne_kind nested path _ p.fieldsJson 1 [] (fieldsJson_ne_kind p), List.reverse_nil, List.nil_append]
  rw [ofFields_fieldsJson _ p hp hch]
  rfl

theorem nesting_le_of_mem {j : Json} {items : List Json} (h : j ∈ items) : j.nesting ≤ Json.nestingItems items := by
  induction items with
  | nil => cases h
  | cons k rest ih =>
    rcases List.mem_cons.mp h with rfl | h
    · simp only [Json.nestingItems]; omega
    · have := ih h
      simp only [Json.nestingItems]; omega

theorem nesting_logical (op : Connective) (cs : List Predicate) :
    (toJson (.logical op cs)).nesting = Json.nestingItems (toJsonList cs) + 2 := by
  simp [toJson, Json.nesting, Json.nestingMembers]

/-- **The tree decoder reads a predicate back** with one level of fuel for every two levels of
nesting of its JSON form: a connective's object and the array of its operands. -/
theorem ofJsonFuel_toJson (f : Nat) : ∀ p : Predicate, p.ReadsBack → (toJson p).nesting ≤ 2 * f + 1 →
    ∀ nested path, ofJsonFuel (f + 1) nested (toJson p) path = .ok p := by
  induction f with
  | zero =>
    intro p hp hn nested path
    refine ofJsonFuel_succ hp (fun op cs hpc => ?_) nested path
    subst hpc
    rw [nesting_logical] at hn
    omega
  | succ f ih =>
    intro p hp hn nested path
    refine ofJsonFuel_succ hp (fun op cs hpc path' => ?_) nested path
    subst hpc
    rw [nesting_logical] at hn
    simp only [Json.asList, toJsonList_eq]
    refine itemsFrom_map _ _ cs path' 0 (fun c hc path'' => ih c (readsBack_of_mem hp hc) ?_ true path'')
    have := nesting_le_of_mem (List.mem_map_of_mem (f := toJson) hc)
    rw [← toJsonList_eq] at this
    omega

/-- The fields of a predicate nesting less than 128 deep read back as it, its operands by the
tree decoder. -/
theorem ofFields_readField {p : Predicate} (hp : p.ReadsBack) (hn : (toJson p).nesting < 128) (path : List Nat) :
    ofFields readField p.kindIndex (.inl p.fieldsJson) path = .ok p := by
  refine ofFields_fieldsJson _ p hp (fun op cs hpc path' => ?_) path
  subst hpc
  rw [nesting_logical] at hn
  simp only [Json.asList, toJsonList_eq]
  refine itemsFrom_map _ _ cs path' 0 (fun c hc path'' => ofJsonFuel_toJson 127 c (readsBack_of_mem hp hc) ?_ true path'')
  have := nesting_le_of_mem (List.mem_map_of_mem (f := toJson) hc)
  rw [← toJsonList_eq] at this
  omega

mutual

theorem toJson_readsBack : ∀ p : Predicate, p.ReadsBack → (toJson p).ReadsBack
  | .comparison _ _ v, h => by
    simp only [toJson, Json.ReadsBack, Json.MembersReadBack, true_and, and_true]
    exact Value.toJson_readsBack v h
  | .inList _ vs _, h => by
    simp only [toJson, Json.ReadsBack, Json.MembersReadBack, true_and, and_true]
    exact Value.toJsonItems_readsBack vs h
  | .between _ lo hi, h => by
    simp only [toJson, Json.ReadsBack, Json.MembersReadBack, true_and, and_true]
    exact ⟨Value.toJson_readsBack lo h.1, Value.toJson_readsBack hi h.2⟩
  | .like _ _ _, _ | .nullCheck _ _, _ | .subquery _ _, _ | .raw _, _ => by
    simp [toJson, Json.ReadsBack, Json.MembersReadBack]
  | .logical _ cs, h => by
    simp only [toJson, Json.ReadsBack, Json.MembersReadBack, true_and, and_true]
    exact toJsonList_readsBack cs h

theorem toJsonList_readsBack : ∀ cs : List Predicate, ListReadsBack cs → Json.ItemsReadBack (toJsonList cs)
  | [], _ => trivial
  | p :: rest, h => ⟨toJson_readsBack p h.1, toJsonList_readsBack rest h.2⟩

end

theorem fieldsJson_readsBack {p : Predicate} (hp : p.ReadsBack) : Json.MembersReadBack p.fieldsJson := by
  have h := toJson_readsBack p hp
  rw [toJson_eq] at h
  exact h.2

end QueryAdvisor.Predicate
