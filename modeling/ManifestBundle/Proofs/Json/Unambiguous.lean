import ManifestBundle.Proofs.Binary64.Notation
import ManifestBundle.Proofs.Text.Quoted
import ManifestBundle.Rendering

/-!
# JSON texts determine the data

A value of finite numbers can be told from any other one by its text, whatever follows in a
text where a comma or a line break stands behind every value (`Told`):

* what kind of value it is, by its first character (`exists_kindAt`);
* a string by its closing quote (`string_append_inj`);
* a number by the comma or line break, the only characters here that cannot stand in one
  (`number_append_inj`): integers by their digits, and floating point numbers by being read
  back, and from integers by a point or the letter of an exponent;
* items and members one by one, by the commas between them and the line break behind the
  last of them (`intercalate_append_inj`).

So the text of values or documents in JSON tells what they hold (`render_json_eq_iff`).
-/

namespace ManifestBundle

mutual

/-- No number in the tree is infinite or not a number. -/
def Value.isFinite : Value → Bool
  | .number (.float x) => x.isFinite
  | .sequence vs => itemsFinite vs
  | .map es => entriesFinite es
  | _ => true
termination_by structural v => v

/-- The items of a sequence have finite numbers only. -/
def itemsFinite : List Value → Bool
  | [] => true
  | v :: vs => v.isFinite && itemsFinite vs
termination_by structural vs => vs

/-- The entries of a map have finite numbers only. -/
def entriesFinite : List (String × Value) → Bool
  | [] => true
  | (_, v) :: es => v.isFinite && entriesFinite es
termination_by structural es => es

end

/-- A sequence has finite numbers only if all its items have. -/
theorem itemsFinite_iff {vs : List Value} : itemsFinite vs ↔ ∀ v ∈ vs, v.isFinite := by
  induction vs with
  | nil => simp [itemsFinite]
  | cons v vs ih => simp [itemsFinite, ih]

theorem entriesFinite_iff {es : List (String × Value)} :
    entriesFinite es ↔ ∀ e ∈ es, e.2.isFinite := by
  induction es with
  | nil => simp [entriesFinite]
  | cons e es ih => simp [entriesFinite, ih]

namespace Json

/-! ## Strings -/

/-- The escapes of strings: a code is the number of a control character, in four digits. -/
def stringEscaping : Text.Escaping where
  marks := [('"', '"'), ('\\', '\\'), ('\n', 'n'), ('\r', 'r'), ('\t', 't'), ('\x08', 'b'),
    ('\x0c', 'f')]
  IsCode c w := c.toNat < 0x20 ∧ w = Text.paddedHex 4 c.toNat
  marks_inj := by decide
  mark_ne := by decide
  isCode_append_inj := by
    rintro c d _ _ x y ⟨hc, rfl⟩ ⟨hd, rfl⟩ h
    have hlength {n : Nat} (hn : n < 0x20) : (Text.paddedHex 4 n).length = 4 :=
      Text.length_paddedHex (by decide) (by omega)
    obtain ⟨hcode, hrest⟩ := List.append_inj h ((hlength hc).trans (hlength hd).symm)
    have hread := Text.charOfHex?_paddedHex c 4
    rw [hcode, Text.charOfHex?_paddedHex] at hread
    exact ⟨(Option.some.inj hread).symm, hrest⟩

/-- Every character of a string stands for itself or is escaped. -/
theorem form_stringChar (c : Char) : stringEscaping.Form c (stringChar c) := by
  rw [stringChar]
  split
  · next h =>
    rcases (by simpa using h : c = '"' ∨ c = '\\') with rfl | rfl
    · exact .mark (by decide)
    · exact .mark (by decide)
  · next h =>
    have hplain : c ≠ '"' ∧ c ≠ '\\' := by simpa using h
    split_ifs with h₁ h₂ h₃ h₄ h₅ h₆
    · exact h₁ ▸ .mark (by decide)
    · exact h₂ ▸ .mark (by decide)
    · exact h₃ ▸ .mark (by decide)
    · exact h₄ ▸ .mark (by decide)
    · exact h₅ ▸ .mark (by decide)
    · exact .code ⟨h₆, rfl⟩
    · exact .plain hplain.1 hplain.2

/-- A string is told by its text up to the closing quote, whatever follows. -/
theorem string_append_inj {s t : String} {x y : List Char} (h : string s ++ x = string t ++ y) :
    s = t ∧ x = y := by
  simp only [string, List.cons_append, List.append_assoc, List.nil_append, List.cons.injEq,
    true_and] at h
  obtain ⟨hs, hx⟩ := Text.Escaping.flatMap_append_inj form_stringChar h
  exact ⟨String.toList_inj.1 hs, hx⟩

/-! ## Numbers -/

/-- A comma or line break: what stands behind a value. -/
def isDelimiter (c : Char) : Bool :=
  c = ',' || c = '\n'

/-- A comma or line break comes next, if anything does. -/
def EndsValue (x : List Char) : Prop :=
  ∀ c, x.head? = some c → isDelimiter c

theorem endsValue_comma (x : List Char) : EndsValue (',' :: x) := by
  rintro c ⟨⟩
  rfl

theorem endsValue_of_newline {x : List Char} (h : x.head? = some '\n') : EndsValue x := by
  intro c hc
  obtain rfl := Option.some.inj (h.symm.trans hc)
  rfl

/-- No digit ends a value. -/
theorem isDelimiter_of_isDigit {c : Char} (h : Text.isDigit c) : isDelimiter c = false := by
  obtain ⟨d, hd, rfl⟩ := Text.exists_digit_of_isDigit h
  clear h
  revert d
  decide

/-- The text of a number starts with a digit or a minus sign. -/
theorem exists_number {n : Number} (h : (Value.number n).isFinite) :
    ∃ c cs, number n = c :: cs ∧ (Text.isDigit c ∨ c = '-') := by
  cases n with
  | integer i =>
    rw [number, Text.integer]
    split
    · exact ⟨'-', _, rfl, .inr rfl⟩
    · obtain ⟨c, cs, hcs, hc, -⟩ := Binary64.exists_digit i.toInt.natAbs
      exact ⟨c, cs, hcs, .inl hc⟩
  | float x =>
    cases x with
    | finite negative m q hcanonical =>
      rw [number, Binary64.write_finite]
      cases negative with
      | true => exact ⟨'-', _, rfl, .inr rfl⟩
      | false =>
        obtain ⟨c, cs, hcs, hc⟩ :=
          Binary64.exists_layout numberStyle (Binary64.shortest numberStyle.tie m q)
        exact ⟨c, cs, hcs, .inl hc⟩
    | infinite => cases h
    | nan => cases h

/-- An integer is written with digits and a minus sign. -/
theorem mem_integer {c : Char} {i : Int} (h : c ∈ Text.integer i) : Text.isDigit c ∨ c = '-' := by
  have hdigit := List.all_eq_true.1 (Text.all_isDigit_toDigits i.natAbs)
  rw [Text.integer] at h
  split at h
  · exact (List.mem_cons.1 h).symm.imp_left (hdigit c)
  · exact .inl (hdigit c h)

/-- Neither a comma nor a line break stands in a number. -/
theorem all_not_isDelimiter_number {n : Number} (h : (Value.number n).isFinite) :
    (number n).all fun c => !isDelimiter c := by
  rw [List.all_eq_true]
  intro c hc
  cases n with
  | integer i =>
    rcases mem_integer hc with hc | rfl
    · rw [isDelimiter_of_isDigit hc, Bool.not_false]
    · rfl
  | float x =>
    cases x with
    | finite negative m q hcanonical =>
      rw [number, Binary64.write_finite, List.mem_append] at hc
      rcases hc with hc | hc
      · cases negative
        · cases hc
        · obtain rfl := List.mem_singleton.1 hc
          rfl
      · rcases Binary64.mem_layout numberStyle _ hc with hc | hc
        · rw [isDelimiter_of_isDigit hc, Bool.not_false]
        · simp only [List.mem_cons, List.not_mem_nil, or_false] at hc
          rcases hc with rfl | rfl | rfl | rfl <;> rfl
    | infinite => nomatch h
    | nan => nomatch h

/-- The text of a floating point number is not that of an integer. -/
theorem integer_ne_float {i : Int64} {x : Binary64} (h : x.isFinite) :
    number (.integer i) ≠ number (.float x) := by
  cases x with
  | finite negative m q hcanonical =>
    obtain ⟨c, hc, hmark⟩ :=
      Binary64.exists_mark numberStyle (Binary64.shortest numberStyle.tie m q) rfl
    intro heq
    have hmem : c ∈ Text.integer i.toInt := by
      rw [number, number, Binary64.write_finite] at heq
      rw [heq]
      exact List.mem_append_right _ hc
    rcases mem_integer hmem with hdigit | rfl
    · rcases hmark with rfl | rfl <;> exact absurd hdigit (by decide)
    · rcases hmark with hmark | hmark <;> nomatch hmark
  | infinite => nomatch h
  | nan => nomatch h

/-- A finite floating point number is told by its text, from which it is read back. -/
theorem float_inj {x y : Binary64} (hx : x.isFinite) (hy : y.isFinite)
    (h : number (.float x) = number (.float y)) : x = y := by
  have hread {z : Binary64} (hz : z.isFinite) :
      Binary64.ofNumeral? (number (.float z)) = some z := by
    cases z with
    | finite negative m q hcanonical =>
      exact Binary64.ofNumeral?_write numberStyle negative hcanonical
    | infinite => nomatch hz
    | nan => nomatch hz
  have hsome := hread hx
  rw [h, hread hy] at hsome
  exact (Option.some.inj hsome).symm

/-- A finite number is told by its text. -/
theorem number_inj {m n : Number} (hm : (Value.number m).isFinite) (hn : (Value.number n).isFinite)
    (h : number m = number n) : m = n := by
  cases m with
  | integer i =>
    cases n with
    | integer j => rw [Int64.toInt_inj.1 (Text.integer_inj h)]
    | float y => exact absurd h (integer_ne_float hn)
  | float x =>
    cases n with
    | integer j => exact absurd h.symm (integer_ne_float hm)
    | float y => rw [float_inj hm hn h]

/-- A finite number is told by its text, whatever follows the comma or line break behind it. -/
theorem number_append_inj {m n : Number} (hm : (Value.number m).isFinite)
    (hn : (Value.number n).isFinite) {x y : List Char} (hx : EndsValue x) (hy : EndsValue y)
    (h : number m ++ x = number n ++ y) : m = n ∧ x = y := by
  have hend {z : List Char} (hz : EndsValue z) :
      ∀ c, z.head? = some c → (!isDelimiter c) = false := fun c hc => by rw [hz c hc, Bool.not_true]
  have htext : number m = number n := by
    rw [← Text.takeWhile_run (all_not_isDelimiter_number hm) (hend hx), h,
      Text.takeWhile_run (all_not_isDelimiter_number hn) (hend hy)]
  rw [htext] at h
  exact ⟨number_inj hm hn htext, List.append_cancel_left h⟩

/-! ## Items and members -/

/-- Between items there are commas, and each stands on a line of its own. -/
theorem printItems_eq (depth : Nat) (vs : List Value) :
    printItems depth vs = [','].intercalate (vs.map fun v => newLine depth ++ printAt depth v) := by
  induction vs with
  | nil => rfl
  | cons v vs ih =>
    cases vs with
    | nil => simp [printItems]
    | cons w vs =>
      rw [printItems, ih]
      simp [List.intercalate_cons_cons]

/-- Between members there are commas, and each stands on a line of its own. -/
theorem printMembers_eq (depth : Nat) (es : List (String × Value)) :
    printMembers depth es = [','].intercalate
      (es.map fun e => newLine depth ++ (string e.1 ++ ':' :: ' ' :: printAt depth e.2)) := by
  induction es with
  | nil => rfl
  | cons e es ih =>
    cases es with
    | nil => simp [printMembers]
    | cons f es =>
      rw [printMembers, ih]
      simp [List.intercalate_cons_cons]

/-- Pieces with commas between them and a line break behind them are told apart if each of
    them is told from each other one. -/
theorem intercalate_append_inj {α : Type} {write : α → List Char} {a b : α} {as bs : List α}
    (hinj : ∀ c ∈ a :: as, ∀ d ∈ b :: bs, ∀ x y, EndsValue x → EndsValue y →
      write c ++ x = write d ++ y → c = d ∧ x = y)
    {x y : List Char} (hx : x.head? = some '\n') (hy : y.head? = some '\n')
    (h : [','].intercalate ((a :: as).map write) ++ x =
      [','].intercalate ((b :: bs).map write) ++ y) : a :: as = b :: bs ∧ x = y := by
  have hfirst := hinj a List.mem_cons_self b List.mem_cons_self
  have hne {z z' : List Char} (hz : z.head? = some '\n') : z ≠ ',' :: z' := by
    rintro rfl
    nomatch hz
  induction as generalizing a b bs with
  | nil =>
    cases bs with
    | nil =>
      obtain ⟨rfl, rfl⟩ := hfirst x y (endsValue_of_newline hx) (endsValue_of_newline hy)
        (by simpa using h)
      exact ⟨rfl, rfl⟩
    | cons b' bs =>
      obtain ⟨-, hrest⟩ := hfirst x _ (endsValue_of_newline hx) (endsValue_comma _)
        (by simpa [List.intercalate_cons_cons] using h)
      exact absurd hrest (hne hx)
  | cons a' as ih =>
    cases bs with
    | nil =>
      obtain ⟨-, hrest⟩ := hfirst _ y (endsValue_comma _) (endsValue_of_newline hy)
        (by simpa [List.intercalate_cons_cons] using h)
      exact absurd hrest.symm (hne hy)
    | cons b' bs =>
      obtain ⟨rfl, hrest⟩ := hfirst _ _ (endsValue_comma _) (endsValue_comma _)
        (by simpa [List.intercalate_cons_cons] using h)
      have hinj' := fun c hc d hd =>
        hinj c (List.mem_cons_of_mem a hc) d (List.mem_cons_of_mem a hd)
      obtain ⟨hmore, rfl⟩ := ih hinj' (List.cons.inj hrest).2
        (hinj' a' List.mem_cons_self b' List.mem_cons_self)
      exact ⟨congrArg (a :: ·) hmore, rfl⟩

/-! ## Values -/

/-- The name of the kind of value that starts with a character. -/
def kindAt (c : Char) : String :=
  if c = 'n' then "null"
  else if c = 't' || c = 'f' then "bool"
  else if c = '"' then "string"
  else if c = '[' then "sequence"
  else if c = '\x7b' then "map"
  else "number"

/-- The first character tells the kind of value. -/
theorem exists_kindAt (depth : Nat) {v : Value} (h : v.isFinite) :
    ∃ c cs, printAt depth v = c :: cs ∧ kindAt c = v.kindName := by
  cases v with
  | null => exact ⟨_, _, rfl, rfl⟩
  | bool b => cases b <;> exact ⟨_, _, rfl, rfl⟩
  | number n =>
    obtain ⟨c, cs, hcs, hc⟩ := exists_number h
    refine ⟨c, cs, hcs, ?_⟩
    rcases hc with hc | rfl
    · have hdigit : ∀ d < 10, kindAt d.digitChar = "number" := by decide
      obtain ⟨d, hd, rfl⟩ := Text.exists_digit_of_isDigit hc
      exact hdigit d hd
    · rfl
  | text s => exact ⟨_, _, rfl, rfl⟩
  | sequence vs => cases vs <;> exact ⟨_, _, rfl, rfl⟩
  | map es => cases es <;> exact ⟨_, _, rfl, rfl⟩

/-- What kind of value it is, is told by its text, whatever follows. -/
theorem kindName_eq {depth : Nat} {v w : Value} (hv : v.isFinite) (hw : w.isFinite)
    {x y : List Char} (h : printAt depth v ++ x = printAt depth w ++ y) :
    v.kindName = w.kindName := by
  obtain ⟨c, cs, hcs, hc⟩ := exists_kindAt depth hv
  obtain ⟨d, ds, hds, hd⟩ := exists_kindAt depth hw
  rw [hcs, hds] at h
  rw [← hc, (List.cons.inj h).1, hd]

/-- In front of a comma or line break the value is told from any other one. -/
def Told (v : Value) : Prop :=
  v.isFinite → ∀ (depth : Nat) (w : Value), w.isFinite → ∀ x y, EndsValue x → EndsValue y →
    printAt depth v ++ x = printAt depth w ++ y → v = w ∧ x = y

theorem told_null : Told .null := by
  intro hv depth w hw x y _ _ h
  have hkind := kindName_eq hv hw h
  cases w with
  | null => exact ⟨rfl, List.append_cancel_left h⟩
  | _ => simp [Value.kindName] at hkind

theorem told_bool (b : Bool) : Told (.bool b) := by
  intro hv depth w hw x y _ _ h
  have hkind := kindName_eq hv hw h
  cases w with
  | bool b' =>
    -- The two names differ in their first letters.
    cases b <;> cases b' <;> simp_all [printAt]
  | _ => simp [Value.kindName] at hkind

theorem told_number (n : Number) : Told (.number n) := by
  intro hv depth w hw x y hx hy h
  have hkind := kindName_eq hv hw h
  cases w with
  | number m =>
    obtain ⟨rfl, hrest⟩ := number_append_inj hv hw hx hy h
    exact ⟨rfl, hrest⟩
  | _ => simp [Value.kindName] at hkind

theorem told_text (s : String) : Told (.text s) := by
  intro hv depth w hw x y _ _ h
  have hkind := kindName_eq hv hw h
  cases w with
  | text t =>
    obtain ⟨rfl, hrest⟩ := string_append_inj h
    exact ⟨rfl, hrest⟩
  | _ => simp [Value.kindName] at hkind

theorem head?_newLine (depth : Nat) (x : List Char) : (newLine depth ++ x).head? = some '\n' :=
  rfl

/-- A sequence is told by its text if its items are. -/
theorem told_sequence {vs : List Value} (h : ∀ v ∈ vs, Told v) : Told (.sequence vs) := by
  intro hv depth w hw x y _ _ heq
  have hkind := kindName_eq hv hw heq
  cases w with
  | sequence ws =>
    cases vs with
    | nil =>
      cases ws with
      | nil => exact ⟨rfl, List.append_cancel_left heq⟩
      | cons b bs => simp [printAt, printItems, newLine] at heq
    | cons a as =>
      cases ws with
      | nil => simp [printAt, printItems, newLine] at heq
      | cons b bs =>
        rw [Value.isFinite, itemsFinite_iff] at hv hw
        rw [printAt, printAt, printItems_eq, printItems_eq] at heq
        simp only [List.cons_append, List.append_assoc, List.nil_append, List.cons.injEq,
          true_and] at heq
        obtain ⟨hitems, hrest⟩ := intercalate_append_inj (fun v hv' w hw' x y hx hy heq' =>
          h v hv' (hv v hv') _ w (hw w hw') x y hx hy (by simpa using heq'))
          (head?_newLine depth _) (head?_newLine depth _) heq
        exact ⟨congrArg _ hitems, (List.cons.inj (List.append_cancel_left hrest)).2⟩
  | _ => simp [Value.kindName] at hkind

/-- A map is told by its text if its values are. -/
theorem told_map {es : List (String × Value)} (h : ∀ e ∈ es, Told e.2) : Told (.map es) := by
  intro hv depth w hw x y _ _ heq
  have hkind := kindName_eq hv hw heq
  cases w with
  | map fs =>
    cases es with
    | nil =>
      cases fs with
      | nil => exact ⟨rfl, List.append_cancel_left heq⟩
      | cons b bs => simp [printAt, printMembers, newLine] at heq
    | cons a as =>
      cases fs with
      | nil => simp [printAt, printMembers, newLine] at heq
      | cons b bs =>
        rw [Value.isFinite, entriesFinite_iff] at hv hw
        rw [printAt, printAt, printMembers_eq, printMembers_eq] at heq
        simp only [List.cons_append, List.append_assoc, List.nil_append, List.cons.injEq,
          true_and] at heq
        obtain ⟨hmembers, hrest⟩ := intercalate_append_inj (fun e he f hf x y hx hy heq' => by
          -- A member is its key, which is a string, and then its value.
          simp only [List.append_assoc, List.cons_append, List.append_cancel_left_eq] at heq'
          obtain ⟨hkey, hvalue⟩ := string_append_inj heq'
          simp only [List.cons.injEq, true_and] at hvalue
          obtain ⟨hvalue, hrest⟩ := h e he (hv e he) _ f.2 (hw f hf) x y hx hy hvalue
          exact ⟨Prod.ext hkey hvalue, hrest⟩)
          (head?_newLine depth _) (head?_newLine depth _) heq
        exact ⟨congrArg _ hmembers, (List.cons.inj (List.append_cancel_left hrest)).2⟩
  | _ => simp [Value.kindName] at hkind

mutual

/-- Every value is told by its text, by induction on its parts. -/
theorem told : ∀ v : Value, Told v
  | .null => told_null
  | .bool b => told_bool b
  | .number n => told_number n
  | .text s => told_text s
  | .sequence vs => told_sequence (itemsTold vs)
  | .map es => told_map (entriesTold es)
termination_by structural v => v

theorem itemsTold : ∀ vs : List Value, ∀ v ∈ vs, Told v
  | [] => List.forall_mem_nil _
  | v :: vs => List.forall_mem_cons.2 ⟨told v, itemsTold vs⟩
termination_by structural vs => vs

theorem entriesTold : ∀ es : List (String × Value), ∀ e ∈ es, Told e.2
  | [] => List.forall_mem_nil _
  | (_, v) :: es => List.forall_mem_cons.2 ⟨told v, entriesTold es⟩
termination_by structural es => es

end

end Json

/-! ## Rendering -/

theorem Value.render_json_inj {v w : Value} (hv : v.isFinite) (hw : w.isFinite)
    (h : v.render .json = w.render .json) : v = w := by
  have hend : Json.EndsValue ['\n'] := Json.endsValue_of_newline rfl
  exact (Json.told v hv 0 w hw _ _ hend hend (String.ofList_injective h)).1

/-- If all numbers are finite, values have the same text in JSON only if they are the same
    value, and lists of documents only if they have the same length and hold the same data,
    one by one. -/
theorem render_json_eq_iff {ds es : List Document} (hds : ∀ d ∈ ds, d.data.isFinite)
    (hes : ∀ e ∈ es, e.data.isFinite) :
    (Document.renderAll ds .json = Document.renderAll es .json ↔
      ds.length = es.length ∧ ds.map Document.data = es.map Document.data) ∧
    ∀ v w : Value, v.isFinite → w.isFinite → (v.render .json = w.render .json ↔ v = w) := by
  refine ⟨⟨fun h => ?_, ?_⟩, fun v w hv hw => ⟨Value.render_json_inj hv hw, fun h => h ▸ rfl⟩⟩
  · have hfinite {fs : List Document} (h : ∀ f ∈ fs, f.data.isFinite) :
        (Value.sequence (fs.map Document.data)).isFinite := by
      rw [Value.isFinite, itemsFinite_iff]
      exact List.forall_mem_map.2 h
    have hdata := Value.sequence.inj (Value.render_json_inj (hfinite hds) (hfinite hes) h)
    exact ⟨by simpa using congrArg List.length hdata, hdata⟩
  · rintro ⟨-, h⟩
    rw [Document.renderAll, Document.renderAll, h]

/-- A document without an identity. -/
def Document.holding (data : Value) : Document where
  group := ""
  version := ""
  kind := ""
  name := ""
  data := data

/-- Neither the order of keys nor the kind of a number is lost. -/
theorem render_json_of_one :
    let one : Value := .number (.integer 1)
    let float : Value := .number (.float (.finite false (2 ^ 52) (-52) (by decide)))
    let ds := [Document.holding (.map [("a", one), ("b", float)])]
    let es := [Document.holding (.map [("b", float), ("a", one)])]
    ((∀ d ∈ ds, d.data.isFinite) ∧ ∀ e ∈ es, e.data.isFinite) ∧
      Document.renderAll ds .json ≠ Document.renderAll es .json ∧
      one.render .json ≠ float.render .json := by
  intro one float ds es
  have hds : ∀ d ∈ ds, d.data.isFinite := List.forall_mem_singleton.2 rfl
  have hes : ∀ e ∈ es, e.data.isFinite := List.forall_mem_singleton.2 rfl
  obtain ⟨hdocuments, hvalues⟩ := render_json_eq_iff hds hes
  refine ⟨⟨hds, hes⟩, fun h => ?_, fun h => ?_⟩
  · simpa [ds, es, Document.holding] using (hdocuments.1 h).2
  · simpa [one, float] using (hvalues one float rfl rfl).1 h

end ManifestBundle
