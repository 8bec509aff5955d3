import ManifestBundle.Document.Lookup
import Mathlib.Data.List.Basic

/-!
# Where key paths lead

A segment leads from a map to the value of its key and from a sequence to the item at its
position (`Value.Step`), and a path leads where its segments do, one after the other
(`Value.Reaches`). So a path that goes on leads where the rest of it does from the value that
its beginning leads to (`Value.reaches_append_iff`), and nowhere if its beginning does.

Looking up data goes by this, and so does every look-up of data of one shape
(`Document.reads_lookupAs`): it gives what the path leads to, or an error that names the document
and the whole path, wherever the path stops short and whatever else stands there
(`Document.lookup_append`).
-/

namespace ManifestBundle

namespace Value

/-! ## Paths -/

/-- The segment leads from one value to another. -/
inductive Step : Value → Segment → Value → Prop
  | key {entries : List (String × Value)} {k : String} {w : Value}
      (h : entries.lookup k = some w) : Step (.map entries) (.key k) w
  | item {items : List Value} {i : UInt64} (h : i.toNat < items.length) :
    Step (.sequence items) (.index i) items[i.toNat]

/-- The segments lead from one value to another, one after the other. -/
inductive Reaches : Value → List Segment → Value → Prop
  | here (v : Value) : Reaches v [] v
  | on {v u w : Value} {s : Segment} {rest : List Segment} (hstep : v.Step s u)
      (hrest : u.Reaches rest w) : Reaches v (s :: rest) w

variable {v w : Value} {s : Segment} {p q : List Segment}

/-- A step is taken exactly where the relation has one. -/
theorem step?_eq_some_iff : v.step? s = some w ↔ v.Step s w := by
  constructor
  · intro h
    cases s with
    | key k =>
      cases v with
      | map entries => exact .key h
      | _ => cases h
    | index i =>
      cases v with
      | sequence items =>
        obtain ⟨hi, rfl⟩ := List.getElem?_eq_some_iff.1 h
        exact .item hi
      | _ => cases h
  · rintro (h | h)
    · exact h
    · exact List.getElem?_eq_getElem h

/-- A path is resolved exactly to what it reaches. -/
theorem resolve?_eq_some_iff : v.resolve? p = some w ↔ v.Reaches p w := by
  induction p generalizing v with
  | nil =>
    constructor
    · rintro ⟨⟩
      exact .here _
    · rintro ⟨⟩
      rfl
  | cons s p ih =>
    rw [resolve?, Option.bind_eq_some_iff]
    simp only [ih, step?_eq_some_iff]
    constructor
    · rintro ⟨u, hstep, hrest⟩
      exact .on hstep hrest
    · rintro (_ | ⟨hstep, hrest⟩)
      exact ⟨_, hstep, hrest⟩

/-- A path that goes on leads where the rest does from the end of its beginning. -/
theorem reaches_append_iff :
    v.Reaches (p ++ q) w ↔ ∃ u, v.Reaches p u ∧ u.Reaches q w := by
  induction p generalizing v with
  | nil =>
    constructor
    · intro h
      exact ⟨v, .here v, h⟩
    · rintro ⟨u, ⟨⟩, h⟩
      exact h
  | cons s p ih =>
    constructor
    · rintro (_ | ⟨hstep, hrest⟩)
      obtain ⟨u, hp, hq⟩ := ih.1 hrest
      exact ⟨u, .on hstep hp, hq⟩
    · rintro ⟨u, _ | ⟨hstep, hp⟩, hq⟩
      exact .on hstep (ih.2 ⟨u, hp, hq⟩)

/-! ## Shapes -/

theorem text?_eq_some_iff {x : String} : v.text? = some x ↔ v = .text x := by
  cases v <;> simp [text?]

theorem integer?_eq_some_iff {i : Int64} : v.integer? = some i ↔ v = .number (.integer i) := by
  cases v with
  | number n => cases n <;> simp [integer?]
  | _ => simp [integer?]

theorem bool?_eq_some_iff {b : Bool} : v.bool? = some b ↔ v = .bool b := by
  cases v <;> simp [bool?]

theorem entries?_eq_some_iff {entries : List (String × Value)} :
    v.entries? = some entries ↔ v = .map entries := by
  cases v <;> simp [entries?]

theorem items?_eq_some_iff {items : List Value} : v.items? = some items ↔ v = .sequence items := by
  cases v <;> simp [items?]

end Value

namespace Document

variable {α : Type} {d : Document} {p q : KeyPath} {e : DocumentError}

/-! ## Look-ups -/

/-- A look-up with a type succeeds exactly if what the path reaches has it. -/
theorem lookupAs_eq_ok_iff {view : Value → Option α} {a : α} :
    d.lookupAs view p = .ok a ↔ ∃ v, d.data.Reaches p.segments v ∧ view v = some a := by
  simp only [← Value.resolve?_eq_some_iff, ← Option.bind_eq_some_iff]
  rw [lookupAs]
  cases (d.data.resolve? p.segments).bind view <;> simp

/-- A look-up that fails has found nothing, and names the document and the whole path. -/
theorem lookupAs_eq_error_iff {view : Value → Option α} :
    d.lookupAs view p = .error e ↔
      (∀ a, d.lookupAs view p ≠ .ok a) ∧ e = .keyNotFound d.name p := by
  rw [lookupAs]
  cases (d.data.resolve? p.segments).bind view <;> simp [eq_comm]

/-- A look-up gives what the path reaches. -/
theorem lookup_eq_ok_iff {v : Value} : d.lookup p = .ok v ↔ d.data.Reaches p.segments v := by
  simp [lookup, lookupAs_eq_ok_iff]

/-- A reading gives what the path leads to if that has the shape, and else the error of a look-up
    that finds nothing there. -/
structure Reads (d : Document) (p : KeyPath) (shape : α → Value)
    (reading : Except DocumentError α) : Prop where
  eq_ok_iff (a : α) : reading = .ok a ↔ d.lookup p = .ok (shape a)
  eq_error_iff (e : DocumentError) :
    reading = .error e ↔ (∀ a, d.lookup p ≠ .ok (shape a)) ∧ e = .keyNotFound d.name p

/-- A look-up with a type reads values of one shape. -/
theorem reads_lookupAs {view : Value → Option α} {shape : α → Value}
    (hshape : ∀ {v a}, view v = some a ↔ v = shape a) : d.Reads p shape (d.lookupAs view p) := by
  have hok (a : α) : d.lookupAs view p = .ok a ↔ d.lookup p = .ok (shape a) := by
    rw [lookupAs_eq_ok_iff, lookup_eq_ok_iff]
    simp only [hshape, exists_eq_right]
  refine ⟨hok, fun e => ?_⟩
  rw [lookupAs_eq_error_iff]
  simp only [ne_eq, hok]

/-- A path that goes on is looked up as its rest is from what its beginning leads to, so it leads
    somewhere only if its beginning does. Where a path leads nowhere, the error names the document
    and the whole path; and so it does where the path leads to data of another shape than the one
    that is asked for. -/
theorem lookup_append (d : Document) (p q : KeyPath) :
    (∀ v, d.lookup p = .ok v ↔ d.data.Reaches p.segments v) ∧
    (∀ w, d.lookup (p.append q) = .ok w ↔
      ∃ v, d.lookup p = .ok v ∧ v.Reaches q.segments w) ∧
    (∀ w, d.lookup (p.append q) = .ok w → ∃ v, d.lookup p = .ok v) ∧
    (∀ e, d.lookup p = .error e →
      d.lookup (p.append q) = .error (.keyNotFound d.name (p.append q))) ∧
    (∀ e, d.lookup p = .error e ↔
      (∀ v, ¬ d.data.Reaches p.segments v) ∧ e = .keyNotFound d.name p) ∧
    (DocumentError.keyNotFound d.name p).message =
      s!"document {Text.quoted d.name} cannot retrieve data key {Text.quoted p.text}" ∧
    d.Reads p .text (d.lookupText p) ∧
    d.Reads p (fun i => .number (.integer i)) (d.lookupInteger p) ∧
    d.Reads p .bool (d.lookupBool p) ∧
    d.Reads p .map (d.lookupEntries p) ∧
    d.Reads p .sequence (d.lookupItems p) := by
  have happend (w : Value) : d.lookup (p.append q) = .ok w ↔
      ∃ v, d.lookup p = .ok v ∧ v.Reaches q.segments w := by
    simp only [lookup_eq_ok_iff]
    exact Value.reaches_append_iff
  have hbeginning (w : Value) (h : d.lookup (p.append q) = .ok w) : ∃ v, d.lookup p = .ok v := by
    obtain ⟨v, hv, -⟩ := (happend w).1 h
    exact ⟨v, hv⟩
  refine ⟨fun _ => lookup_eq_ok_iff, happend, hbeginning, fun e h => ?_, fun e => ?_, rfl,
    reads_lookupAs Value.text?_eq_some_iff, reads_lookupAs Value.integer?_eq_some_iff,
    reads_lookupAs Value.bool?_eq_some_iff, reads_lookupAs Value.entries?_eq_some_iff,
    reads_lookupAs Value.items?_eq_some_iff⟩
  · refine lookupAs_eq_error_iff.2 ⟨fun w hw => ?_, rfl⟩
    obtain ⟨v, hv⟩ := hbeginning w hw
    cases h.symm.trans hv
  · refine lookupAs_eq_error_iff.trans (and_congr_left' (forall_congr' fun v => ?_))
    exact not_congr lookup_eq_ok_iff

/-- A service with one port. -/
def service : Document where
  group := ""
  version := "v1"
  kind := "Service"
  name := "web"
  data := .map [("spec", .map [("ports", .sequence [.number (.integer 80)])])]

/-- The ports lead to the first port, and what is not there leads to no port. -/
theorem lookup_append_of_service :
    service.lookup ⟨[.key "spec", .key "ports", .index 0]⟩ = .ok (.number (.integer 80)) ∧
      service.lookup ⟨[.key "spec", .key "hosts"]⟩ =
        .error (.keyNotFound "web" ⟨[.key "spec", .key "hosts"]⟩) ∧
      service.lookup ⟨[.key "spec", .key "hosts", .index 0]⟩ =
        .error (.keyNotFound "web" ⟨[.key "spec", .key "hosts", .index 0]⟩) := by
  have hports := lookup_append service ⟨[.key "spec", .key "ports"]⟩ ⟨[.index 0]⟩
  have hhosts := lookup_append service ⟨[.key "spec", .key "hosts"]⟩ ⟨[.index 0]⟩
  have hmissing : service.lookup ⟨[.key "spec", .key "hosts"]⟩ =
      .error (.keyNotFound "web" ⟨[.key "spec", .key "hosts"]⟩) := rfl
  refine ⟨(hports.2.1 _).2 ⟨_, rfl, .on (.item (by decide)) (.here _)⟩, hmissing, ?_⟩
  exact hhosts.2.2.2.1 _ hmissing

end Document

end ManifestBundle
