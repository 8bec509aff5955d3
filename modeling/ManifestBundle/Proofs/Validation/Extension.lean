import ManifestBundle.Proofs.Document.Lookup
import ManifestBundle.Proofs.Lists
import ManifestBundle.Proofs.Validation.Document

/-!
# Data that is extended

A data tree extends another one if it has a place for all that the other one holds
(`Value.Extends`): a map keeps the keys and a sequence the positions, each with a tree that
extends the one that stood there, and a scalar may give way to anything.

So a segment that leads on in a tree does so in a tree that extends it, to a tree that extends
the one it led to (`Extends.step`), and by induction every path leads as far as it did
(`Extends.reaches`). What a schema requires of a document does not depend on its data, so a
document stays valid when its data are extended (`validate_withData_of_extends`).
-/

namespace ManifestBundle

namespace Value

/-- The first tree extends the second. -/
inductive Extends : Value → Value → Prop
  /-- A scalar may give way to anything. -/
  | scalar {w v : Value} (h : v.isContainer = false) : Extends w v
  /-- A map keeps its keys. -/
  | map {new old : List (String × Value)}
      (keys : ∀ k, (old.lookup k).isSome → (new.lookup k).isSome)
      (values : ∀ k w v, new.lookup k = some w → old.lookup k = some v → Extends w v) :
      Extends (.map new) (.map old)
  /-- A sequence keeps its positions. -/
  | sequence {new old : List Value} (length : old.length ≤ new.length)
      (items : ∀ (i : Nat) w v, new[i]? = some w → old[i]? = some v → Extends w v) :
      Extends (.sequence new) (.sequence old)

variable {w v u : Value} {s : Segment} {p : List Segment}

/-! ## Building extensions -/

theorem Extends.map_nil (new : List (String × Value)) : Extends (.map new) (.map []) :=
  .map nofun nofun

theorem Extends.map_cons {new old : List (String × Value)} {k : String} (hw : new.lookup k = some w)
    (h : w.Extends v) (hrest : Extends (.map new) (.map old)) :
    Extends (.map new) (.map ((k, v) :: old)) := by
  cases hrest with
  | scalar hold => nomatch hold
  | map keys values =>
    refine .map (fun k' => ?_) (fun k' w' v' => ?_)
    · rw [List.lookup_cons_eq_ite]
      split
      · next hk => rw [hk, hw]; exact fun _ => rfl
      · exact keys k'
    · rw [List.lookup_cons_eq_ite]
      split
      · next hk =>
        rw [hk, hw]
        rintro ⟨⟩ ⟨⟩
        exact h
      · exact values k' w' v'

theorem Extends.sequence_nil (new : List Value) : Extends (.sequence new) (.sequence []) :=
  .sequence (Nat.zero_le _) nofun

theorem Extends.sequence_cons {new old : List Value} (h : w.Extends v)
    (hrest : Extends (.sequence new) (.sequence old)) :
    Extends (.sequence (w :: new)) (.sequence (v :: old)) := by
  cases hrest with
  | scalar hold => nomatch hold
  | sequence length items =>
    refine .sequence (Nat.succ_le_succ length) fun i w' v' => ?_
    cases i with
    | zero =>
      rintro ⟨⟩ ⟨⟩
      exact h
    | succ i => exact items i w' v'

/-! ## Paths -/

/-- A segment that leads on still does, to a tree that extends the one it led to. -/
theorem Extends.step (h : w.Extends v) (hstep : v.Step s u) : ∃ x, w.Step s x ∧ x.Extends u := by
  cases h with
  | scalar h => cases hstep <;> nomatch h
  | map keys values =>
    cases hstep with
    | key hu =>
      obtain ⟨x, hx⟩ := Option.isSome_iff_exists.1 (keys _ (Option.isSome_of_eq_some hu))
      exact ⟨x, .key hx, values _ _ _ hx hu⟩
  | sequence length items =>
    cases hstep with
    | item hi =>
      have hx := List.getElem?_eq_getElem (Nat.lt_of_lt_of_le hi length)
      exact ⟨_, .item _, items _ _ _ hx (List.getElem?_eq_getElem hi)⟩

/-- A path leads as far as it did, to a tree that extends the one it led to. -/
theorem Extends.reaches (h : w.Extends v) (hp : v.Reaches p u) :
    ∃ x, w.Reaches p x ∧ x.Extends u := by
  induction hp generalizing w with
  | here v => exact ⟨w, .here w, h⟩
  | on hstep _ ih =>
    obtain ⟨y, hy, hyu⟩ := h.step hstep
    obtain ⟨x, hx, hxu⟩ := ih hyu
    exact ⟨x, .on hy hx, hxu⟩

/-- What leads somewhere in a tree leads somewhere in what extends it. -/
theorem Extends.isSome_resolve? (h : w.Extends v) (hp : (v.resolve? p).isSome) :
    (w.resolve? p).isSome := by
  obtain ⟨u, hu⟩ := Option.isSome_iff_exists.1 hp
  obtain ⟨x, hx, -⟩ := h.reaches (resolve?_eq_some_iff.1 hu)
  exact Option.isSome_of_eq_some (resolve?_eq_some_iff.2 hx)

end Value

namespace Schema

/-! ## Validation -/

/-- What is required of a document does not depend on its data. -/
theorem validate_withData_eq_ok_iff {s : Schema} {d : Document} {v : Value} :
    s.validate (d.withData v) = .ok () ↔
      empty.validate d = .ok () ∧ ∀ path ∈ s.requiredPaths d, (v.resolve? path.segments).isSome :=
  validate_eq_ok_iff

/-- A document that is valid stays so when its data are extended. -/
theorem validate_withData_of_extends (s : Schema) (d : Document) {v w : Value} (h : w.Extends v)
    (hv : s.validate (d.withData v) = .ok ()) : s.validate (d.withData w) = .ok () := by
  rw [validate_withData_eq_ok_iff] at hv ⊢
  exact ⟨hv.1, fun path hpath => h.isSome_resolve? (hv.2 path hpath)⟩

/-- A pod without data. -/
def pod : Document where
  group := ""
  version := "v1"
  kind := "Pod"
  name := "web"

/-- A pod that must name the image of its first container may do so in another form, in a
    container of which more is known, and have more containers. -/
theorem validate_withData_of_sidecar :
    let s := builtin.require "Pod" ⟨[.key "spec", .key "containers", .index 0, .key "image"]⟩
    let v : Value := .map [("spec", .map [("containers", .sequence [.map [("image", .null)]])])]
    let w : Value := .map [("metadata", .null), ("spec", .map [("containers", .sequence [
      .map [("name", .text "web"), ("image", .map [("tag", .text "1.25")])], .null])])]
    w.Extends v ∧ s.validate (pod.withData v) = .ok () ∧ s.validate (pod.withData w) = .ok () ∧
      s.validate pod ≠ .ok () := by
  intro s v w
  have hdata : w.Extends v := by
    refine .map_cons rfl (.map_cons rfl (.sequence_cons ?container ?_) ?_) ?_
    case container => exact .map_cons rfl (.scalar rfl) (.map_nil _)
    · exact .sequence_nil _
    · exact .map_nil _
    · exact .map_nil _
  have hvalid : s.validate (pod.withData v) = .ok () := by decide +kernel
  exact ⟨hdata, hvalid, validate_withData_of_extends s pod hdata hvalid, by decide +kernel⟩

end Schema

end ManifestBundle
