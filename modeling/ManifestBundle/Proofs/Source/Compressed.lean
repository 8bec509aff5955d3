import ManifestBundle.Proofs.Gzip.Member
import ManifestBundle.Proofs.Source.Encoding

/-!
# Compressed sources

A compressed file may consist of several members, and stands for their contents one after the
other. A source gives the text of the first of them only (`Source.read_members`), so what it
gives is all of the text exactly if no other member holds anything; two members that hold a
document each show that documents are lost (`Source.read_twoMembers`). A source with one
member is given in full.
-/

namespace ManifestBundle

open Gzip (IsMember storedMember isMember_storedMember)

/-- Octets have the text that a member at their front holds, whatever follows it. -/
theorem decompressText?_eq_some_iff {os : List UInt8} {text : String} :
    decompressText? os = some text ↔ ∃ m rest, IsMember m text.toUTF8.toList ∧ os = m ++ rest := by
  simp only [decompressText?, Option.bind_eq_some_iff, Gzip.content?_eq_some_iff,
    decodeText?_eq_some_iff]
  constructor
  · rintro ⟨_, h, rfl⟩
    exact h
  · intro h
    exact ⟨_, h, rfl⟩

/-- A member starts with the magic number. -/
theorem Gzip.IsMember.hasMagic {m content : List UInt8} (h : IsMember m content)
    (rest : List UInt8) : hasMagic (m ++ rest) = true := by
  obtain ⟨hheader, -, -, -, -, -⟩ := h
  cases hheader
  rfl

/-- A text and a member that holds it. -/
structure PackedText where
  text : String
  octets : List UInt8
  isMember : IsMember octets text.toUTF8.toList

namespace PackedText

/-- The text without compression. -/
def stored (text : String) (h : text.toUTF8.toList.length ≤ 0xffff) : PackedText where
  text
  octets := storedMember text.toUTF8.toList
  isMember := isMember_storedMember h

/-- The octets of a file that consists of members. -/
def file (ps : List PackedText) : List UInt8 :=
  ps.flatMap octets

/-- The text that such a file stands for. -/
def fullText (ps : List PackedText) : String :=
  String.join (ps.map text)

variable (p : PackedText) (ps : List PackedText)

theorem fullText_cons : fullText (p :: ps) = p.text ++ fullText ps := by
  rw [fullText, List.map_cons, String.join_cons, fullText]

theorem fullText_eq_empty_iff : fullText ps = "" ↔ ∀ p ∈ ps, p.text = "" := by
  induction ps with
  | nil => simp [fullText]
  | cons p ps ih => rw [fullText_cons, String.append_eq_empty_iff, ih, List.forall_mem_cons]

/-- The first text is all of the text exactly if the others are empty. -/
theorem fullText_cons_eq_iff : p.text = fullText (p :: ps) ↔ ∀ q ∈ ps, q.text = "" := by
  rw [fullText_cons, ← fullText_eq_empty_iff, ← String.toList_inj, String.toList_append,
    List.self_eq_append_right, String.toList_eq_nil_iff]

/-- Of a file of several texts the first one is read. -/
theorem decompressText?_file : decompressText? (file (p :: ps)) = some p.text :=
  decompressText?_eq_some_iff.2 ⟨p.octets, file ps, p.isMember, List.flatMap_cons⟩

theorem hasMagic_file : Gzip.hasMagic (file (p :: ps)) = true := by
  rw [file, List.flatMap_cons]
  exact p.isMember.hasMagic _

end PackedText

namespace Source

open PackedText (stored fullText)

variable {files : FileTree} {path : String}

/-- A source of members gives the text of the first one, from a file as from standard input;
    that is all of the text only if there is nothing in the others. -/
theorem read_members {p : PackedText} {ps : List PackedText} (hpath : isGzipPath path = true)
    (hread : files.read? path = some (PackedText.file (p :: ps))) (input : List UInt8) :
    let text := fullText (p :: ps)
    let os := PackedText.file (p :: ps)
    ((file path).read files input = .ok (p.text, input) ∧
        standardInput.read files os = .ok (p.text, [])) ∧
      ((file path).read files input = .ok (text, input) ↔ ∀ q ∈ ps, q.text = "") ∧
      (standardInput.read files os = .ok (text, []) ↔ ∀ q ∈ ps, q.text = "") := by
  intro text os
  have hfile : (file path).read files input = .ok (p.text, input) := by
    simp only [read, fileText, if_pos hpath, hread, PackedText.decompressText?_file]
    rfl
  have hinput : standardInput.read files os = .ok (p.text, []) := by
    rw [read, inputText, if_pos (p.hasMagic_file ps), PackedText.decompressText?_file]
    rfl
  rw [hfile, hinput]
  simp only [Except.ok.injEq, Prod.mk.injEq, and_true, p.fullText_cons_eq_iff ps, text]

/-- A member without a text does no harm behind the one that holds the document. -/
theorem read_members_of_empty :
    let ps := [stored "kind: A\n" (by decide +kernel), stored "" (by decide +kernel)]
    let files : FileTree := ⟨.directory [("x.yaml.gz", .file (PackedText.file ps))]⟩
    isGzipPath "x.yaml.gz" = true ∧ files.read? "x.yaml.gz" = some (PackedText.file ps) ∧
      (file "x.yaml.gz").read files [] = .ok ("kind: A\n", []) ∧
      standardInput.read files (PackedText.file ps) = .ok ("kind: A\n", []) := by
  intro ps files
  have hpath : isGzipPath "x.yaml.gz" = true := by decide
  have hread : files.read? "x.yaml.gz" = some (PackedText.file ps) := by decide +kernel
  exact ⟨hpath, hread, (read_members hpath hread []).1⟩

/-- The second document of a bundle of two members is lost. -/
theorem read_twoMembers :
    let ps := [stored "kind: A\n" (by decide +kernel), stored "---\nkind: B\n" (by decide +kernel)]
    let files : FileTree := ⟨.directory [("x.yaml.gz", .file (PackedText.file ps))]⟩
    fullText ps = "kind: A\n---\nkind: B\n" ∧
      (file "x.yaml.gz").read files [] ≠ .ok (fullText ps, []) ∧
      standardInput.read files (PackedText.file ps) ≠ .ok (fullText ps, []) := by
  decide +kernel

end Source

end ManifestBundle
