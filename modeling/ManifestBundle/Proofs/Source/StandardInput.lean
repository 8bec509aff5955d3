import ManifestBundle.Proofs.Files.Path
import ManifestBundle.Proofs.Source.Compressed

/-!
# Standard input and files

Whether a file is compressed is told by its name, and whether standard input is, by the octets
that it starts with. No text is encoded by octets that start so (`Source.not_magic_toUTF8`), as
the second of them starts no character. So a text can always be given on standard input, and
octets are read alike from standard input and from a file if the two signs agree
(`Source.text?_standardInput_eq_file`).
-/

namespace ManifestBundle.Source

variable {files : FileTree} {path : String} {os : List UInt8}

/-- The text of a source, if it can be read. -/
def text? (files : FileTree) (input : List UInt8) (s : Source) : Option String :=
  ((s.read files input).map Prod.fst).toOption

/-- The name of the file ends in `.gz`, with something in front. -/
def HasGzipName (path : String) : Prop :=
  ∃ stem, stem ≠ [] ∧ Path.fileName? path = some (stem ++ ".gz".toList)

/-- A path is that of a compressed file by its name alone. -/
theorem isGzipPath_iff : isGzipPath path = true ↔ HasGzipName path := by
  have hdot : '.' ∉ ['g', 'z'] := by decide
  rw [isGzipPath, decide_eq_true_eq, Path.extension?_eq_some_iff, and_iff_right hdot]
  rfl

theorem hasMagic_iff : Gzip.hasMagic os = true ↔ [0x1f, 0x8b] <+: os :=
  List.isPrefixOf_iff_prefix

/-- The octets of a text do not start as those of a compressed file. -/
theorem not_magic_toUTF8 (text : String) : ¬ [0x1f, 0x8b] <+: text.toUTF8.toList := by
  rintro ⟨rest, h⟩
  rw [toUTF8_eq] at h
  cases hcs : text.toList with
  | nil => simp [hcs] at h
  | cons c cs =>
    obtain ⟨o, tail, hc, hfirst⟩ := utf8EncodeChar_starts c
    simp only [hcs, List.flatMap_cons, hc, List.cons_append, List.nil_append,
      List.cons.injEq] at h
    obtain ⟨rfl, h⟩ := h
    -- The first octet is a character, so the second one starts another.
    rcases hfirst with ⟨-, -, rfl⟩ | hfirst
    · cases cs with
      | nil => nomatch h
      | cons d ds =>
        obtain ⟨o', tail', hd, hsecond⟩ := utf8EncodeChar_starts d
        simp only [List.nil_append, List.flatMap_cons, hd, List.cons_append,
          List.cons.injEq] at h
        obtain ⟨rfl, -⟩ := h
        rcases hsecond with ⟨htoNat, hlt, -⟩ | hle
        · rw [← htoNat] at hlt
          exact absurd hlt (by decide)
        · exact absurd hle (by decide)
    · exact absurd hfirst (by decide)

theorem read_standardInput_toUTF8 (files : FileTree) (text : String) :
    standardInput.read files text.toUTF8.toList = .ok (text, []) := by
  have hmagic : ¬ Gzip.hasMagic text.toUTF8.toList = true :=
    fun h => not_magic_toUTF8 text (hasMagic_iff.1 h)
  rw [read, inputText, if_neg hmagic, decodeText?_eq_some_iff.2 rfl]
  rfl

/-! ## One by one -/

/-- Standard input is decompressed if it starts like a compressed file. -/
theorem text?_standardInput (files : FileTree) (os : List UInt8) :
    standardInput.text? files os =
      if Gzip.hasMagic os then decompressText? os else decodeText? os := by
  rw [text?, read, inputText]
  split
  · cases decompressText? os <;> rfl
  · cases decodeText? os <;> rfl

/-- A file is decompressed if its name says that it is compressed. -/
theorem text?_file (hread : files.read? path = some os) (input : List UInt8) :
    (file path).text? files input =
      if isGzipPath path then decompressText? os else decodeText? os := by
  rw [text?, read, fileText, hread, Option.bind_some]
  split
  · dsimp only
    cases decompressText? os <;> rfl
  · cases decodeText? os <;> rfl

/-- Octets have the same text on standard input and in a file, or none in either, if the name of
    the file says that it is compressed exactly if the octets start so. A text that is given on
    standard input never starts so, and is read as it is. -/
theorem text?_standardInput_eq_file (hread : files.read? path = some os) (input : List UInt8) :
    (([0x1f, 0x8b] <+: os ↔ HasGzipName path) →
      standardInput.text? files os = (file path).text? files input) ∧
    ∀ text : String, ¬ [0x1f, 0x8b] <+: text.toUTF8.toList ∧
      standardInput.read files text.toUTF8.toList = .ok (text, []) := by
  refine ⟨fun hsigns => ?_,
    fun text => ⟨not_magic_toUTF8 text, read_standardInput_toUTF8 files text⟩⟩
  rw [← hasMagic_iff, ← isGzipPath_iff, Bool.coe_iff_coe] at hsigns
  rw [text?_standardInput, text?_file hread, hsigns]

/-- A compressed file is read alike from both, and cut short from neither. -/
theorem text?_file_of_packed :
    let packed := Gzip.storedMember "kind: A\n".toUTF8.toList
    let files : FileTree :=
      ⟨.directory [("x.yaml.gz", .file packed), ("y.gz", .file (packed.take 20))]⟩
    (files.read? "x.yaml.gz" = some packed ∧ files.read? "y.gz" = some (packed.take 20)) ∧
      ([0x1f, 0x8b] <+: packed ∧ [0x1f, 0x8b] <+: packed.take 20) ∧
      (HasGzipName "x.yaml.gz" ∧ HasGzipName "y.gz") ∧
      (file "x.yaml.gz").text? files [] = some "kind: A\n" ∧
      (file "y.gz").text? files [] = none := by
  intro packed files
  have hx : files.read? "x.yaml.gz" = some packed := by decide +kernel
  have hy : files.read? "y.gz" = some (packed.take 20) := by decide +kernel
  have hpacked : [0x1f, 0x8b] <+: packed := hasMagic_iff.1 (by decide +kernel)
  have hcut : [0x1f, 0x8b] <+: packed.take 20 := hasMagic_iff.1 (by decide +kernel)
  have hnameX : HasGzipName "x.yaml.gz" := isGzipPath_iff.1 (by decide +kernel)
  have hnameY : HasGzipName "y.gz" := isGzipPath_iff.1 (by decide +kernel)
  refine ⟨⟨hx, hy⟩, ⟨hpacked, hcut⟩, ⟨hnameX, hnameY⟩, ?_, ?_⟩
  · rw [← (text?_standardInput_eq_file hx []).1 (iff_of_true hpacked hnameX)]
    decide +kernel
  · rw [← (text?_standardInput_eq_file hy []).1 (iff_of_true hcut hnameY)]
    decide +kernel

end ManifestBundle.Source
