import ManifestBundle.Proofs.Yaml.Number
import ManifestBundle.Proofs.Yaml.ScalarText
import ManifestBundle.Yaml.Printer

/-!
# The lines of a value

How the lines of a collection are put together from those of its entries, and the
characters of a document: it starts with neither space nor comment, and holds printable
characters only.
-/

namespace ManifestBundle.Yaml

/-! ## Entries -/

/-- The lines of the items behind another one. -/
def moreItems (n : Nat) : List Value → List Char
  | [] => []
  | v :: vs => pad n ++ printItems n (v :: vs)

/-- The lines of the entries behind another one. -/
def moreEntries (n : Nat) : List (String × Value) → List Char
  | [] => []
  | e :: es => pad n ++ printEntries n (e :: es)

/-- What stands behind the colon of a key that is not behind a question mark. -/
def besideKey (n : Nat) : Value → List Char
  | .sequence (v :: vs) => '\n' :: pad n ++ printItems n (v :: vs)
  | .map (e :: es) => '\n' :: pad (n + 2) ++ printEntries (n + 2) (e :: es)
  | v => ' ' :: printNode (n + 2) v

/-- The lines of an entry. -/
def printEntry (n : Nat) (key : String) (v : Value) : List Char :=
  if isSimpleKey key then scalarText (n + 2) key.toList ++ ':' :: besideKey n v
  else '?' :: ' ' :: endLine (scalarText (n + 2) key.toList) ++ pad n ++
    ':' :: ' ' :: printNode (n + 2) v

/-- An item stands behind a hyphen, and the others stand on lines of their own. -/
theorem printItems_cons (n : Nat) (v : Value) (vs : List Value) :
    printItems n (v :: vs) = '-' :: ' ' :: printNode (n + 2) v ++ moreItems n vs := by
  cases vs <;> rfl

/-- The lines of an entry come first, and the others stand on lines of their own. -/
theorem printEntries_cons (n : Nat) (key : String) (v : Value) (es : List (String × Value)) :
    printEntries n ((key, v) :: es) = printEntry n key v ++ moreEntries n es := by
  cases es <;> cases v with
  | sequence vs => cases vs <;> rfl
  | map es => cases es <;> rfl
  | _ => rfl

/-! ## The first character -/

/-- What ends with a line break starts with what it ended. -/
theorem endLine_append (cs tail : List Char) : ∃ more, endLine cs ++ tail = cs ++ more := by
  rw [endLine]
  split
  · exact ⟨tail, rfl⟩
  · exact ⟨'\n' :: tail, by simp⟩

/-- A sequence of items starts with a hyphen. -/
theorem startsToken_printItems (n : Nat) (v : Value) (vs : List Value) (tail : List Char) :
    StartsToken (printItems n (v :: vs) ++ tail) := by
  rw [printItems_cons]
  exact startsToken_cons (by decide) (by decide) (by decide)

theorem startsToken_printEntries (n : Nat) (e : String × Value) (es : List (String × Value))
    (tail : List Char) : StartsToken (printEntries n (e :: es) ++ tail) := by
  obtain ⟨key, v⟩ := e
  rw [printEntries_cons, printEntry]
  split
  · rw [List.append_assoc, List.append_assoc]
    exact startsToken_scalarText _ _ _
  · exact startsToken_cons (by decide) (by decide) (by decide)

theorem printNumber_ne_nil (x : Number) : printNumber x ≠ [] := by
  intro h
  have hread := plainNode?_printNumber x
  rw [h] at hread
  cases x <;> nomatch hread

/-- A value starts with neither space nor comment, whatever it is. -/
theorem startsToken_printNode (n : Nat) (v : Value) (tail : List Char) :
    StartsToken (printNode n v ++ tail) := by
  match v with
  | .null => exact startsToken_cons (by decide) (by decide) (by decide)
  | .bool true => exact startsToken_cons (by decide) (by decide) (by decide)
  | .bool false => exact startsToken_cons (by decide) (by decide) (by decide)
  | .number x =>
    rw [printNode, List.append_assoc]
    exact startsToken_of_fitsPlain (fitsPlain_printNumber x) (printNumber_ne_nil x) _
  | .text s =>
    obtain ⟨more, hmore⟩ := endLine_append (scalarText n s.toList) tail
    rw [printNode, hmore]
    exact startsToken_scalarText _ _ _
  | .sequence [] => exact startsToken_cons (by decide) (by decide) (by decide)
  | .sequence (v :: vs) =>
    rw [printNode]
    exact startsToken_printItems n v vs tail
  | .map [] => exact startsToken_cons (by decide) (by decide) (by decide)
  | .map (e :: es) =>
    rw [printNode]
    exact startsToken_printEntries n e es tail

/-! ## All characters -/

theorem all_isPrintable_endLine {cs : List Char} (h : cs.all isPrintable) :
    (endLine cs).all isPrintable := by
  rw [endLine]
  split
  · exact h
  · rw [List.all_append, h]
    decide

theorem all_isPrintable_printNumber (x : Number) : (printNumber x).all isPrintable := by
  have hprint := (plainPart_of_fitsPlain (fitsPlain_printNumber x)).printable
  rw [List.all_eq_true] at hprint ⊢
  intro c hc
  have hc' := hprint c hc
  rw [Bool.and_eq_true] at hc'
  exact hc'.1

/-- What stands behind a colon is printable if the value is. -/
theorem all_isPrintable_besideKey {v : Value} (h : ∀ n, (printNode n v).all isPrintable) (n : Nat) :
    (besideKey n v).all isPrintable := by
  have hnewline : isPrintable '\n' := by decide
  have hspace : isPrintable ' ' := by decide
  unfold besideKey
  split
  · rename_i v vs
    have hlines : (printItems n (v :: vs)).all isPrintable := h n
    simp only [List.all_append, List.all_cons, hnewline, all_isPrintable_pad, hlines, Bool.and_self]
  · rename_i e es
    have hlines : (printEntries (n + 2) (e :: es)).all isPrintable := h (n + 2)
    simp only [List.all_append, List.all_cons, hnewline, all_isPrintable_pad, hlines, Bool.and_self]
  · rw [List.all_cons, hspace, h]
    rfl

/-- The lines of an entry can stand in a stream if those of its value can. -/
theorem all_isPrintable_entry {n : Nat} {key : String} {v : Value}
    (h : ∀ n, (printNode n v).all isPrintable) : (printEntry n key v).all isPrintable := by
  have hkey := all_isPrintable_scalarText (n + 2) key.toList
  have hmarks : isPrintable ':' ∧ isPrintable '?' ∧ isPrintable ' ' := by decide
  rw [printEntry]
  split <;> simp only [List.all_append, List.all_cons, hkey, all_isPrintable_endLine hkey,
    all_isPrintable_pad, all_isPrintable_besideKey h, hmarks, h, Bool.and_self]

mutual

/-- A value is written in printable characters only, by induction on its parts. -/
theorem all_isPrintable_printNode (n : Nat) : ∀ v : Value, (printNode n v).all isPrintable
  | .null => rfl
  | .bool true => rfl
  | .bool false => rfl
  | .number x => by
    rw [printNode, List.all_append, all_isPrintable_printNumber]
    decide
  | .text s => all_isPrintable_endLine (all_isPrintable_scalarText n s.toList)
  | .sequence [] => rfl
  | .sequence (v :: vs) => all_isPrintable_printItems n (v :: vs)
  | .map [] => rfl
  | .map (e :: es) => all_isPrintable_printEntries n (e :: es)

theorem all_isPrintable_printItems (n : Nat) : ∀ vs : List Value, (printItems n vs).all isPrintable
  | [] => rfl
  | v :: vs => by
    have hmarks : isPrintable '-' ∧ isPrintable ' ' := by decide
    have hmore : (moreItems n vs).all isPrintable := by
      cases vs with
      | nil => rfl
      | cons w vs =>
        rw [moreItems, List.all_append, all_isPrintable_pad, all_isPrintable_printItems n (w :: vs)]
        rfl
    simp only [printItems_cons, List.all_append, List.all_cons, hmarks, hmore,
      all_isPrintable_printNode (n + 2) v, Bool.and_self]

theorem all_isPrintable_printEntries (n : Nat) :
    ∀ es : List (String × Value), (printEntries n es).all isPrintable
  | [] => rfl
  | (key, v) :: es => by
    have hmore : (moreEntries n es).all isPrintable := by
      cases es with
      | nil => rfl
      | cons e es =>
        rw [moreEntries, List.all_append, all_isPrintable_pad,
          all_isPrintable_printEntries n (e :: es)]
        rfl
    rw [printEntries_cons, List.all_append, hmore,
      all_isPrintable_entry fun n => all_isPrintable_printNode n v]
    rfl

end

/-! ## Documents -/

/-- A document starts with neither space nor comment. -/
theorem startsToken_print (v : Value) (tail : List Char) : StartsToken (print v ++ tail) := by
  rw [print]
  split
  · exact startsToken_printNode 0 v tail
  · exact startsToken_printNode 2 v tail

/-- A document is written in printable characters only. -/
theorem all_isPrintable_print (v : Value) : (print v).all isPrintable := by
  rw [print]
  split
  · exact all_isPrintable_printNode 0 v
  · exact all_isPrintable_printNode 2 v

end ManifestBundle.Yaml
