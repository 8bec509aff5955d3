import ManifestBundle.Proofs.KeyPath.RoundTrip
import ManifestBundle.Proofs.KeyPath.SyntaxMessage

/-!
# The position of a syntax error in a key path

Where the refusal of a text names a position, that is the position of the first character at
fault: the characters before it can be continued to a key path, but not with the character
that is there (`parse_error_position`).

A fault is told for any language (`FirstFault`), as each part of the reader has its own: what
can follow a dot (`IsDotted`), an opening bracket (`IsBracketed`) and a segment (`IsElements`).
An error that points at the first fault of the rest of a text does so for the whole text, if
what has been read determines which rests are in the language (`Points.behind`). So it is
enough to look at the part of the reader that raises the error (`points_bare`,
`points_bracket`), and the parts before it are put in front one after the other.
-/

namespace ManifestBundle.KeyPath

/-! ## Faults -/

/-- The text that consists of `before` and `after` has its first fault where `after` starts:
    what is before can be continued to a text of the language, but not with the character
    that is there. -/
structure FirstFault (L : List Char → Prop) (before after : List Char) : Prop where
  viable : ∃ more, L (before ++ more)
  dead (c : Char) : after.head? = some c → ∀ more, ¬ L (before ++ c :: more)

/-- The error is one for the text `cs`, which starts at position `n`: a position that it names
    is that of the first fault of the text, and it finds fault with the character there. -/
def Points (L : List Char → Prop) (n : Nat) (cs : List Char) (e : SyntaxError) : Prop :=
  ∀ m, e.position? = some m → ∃ before after, cs = before ++ after ∧ n + byteLength before = m ∧
    FirstFault L before after ∧ ∀ c, e.found? = some c → after.head? = some c

variable {L L' : List Char → Prop} {n : Nat} {cs : List Char} {err : SyntaxError}

theorem byteLength_append (cs ds : List Char) :
    byteLength (cs ++ ds) = byteLength cs + byteLength ds := by
  rw [byteLength, String.ofList_append, String.utf8ByteSize_append]
  rfl

theorem byteLength_cons (c : Char) (cs : List Char) :
    byteLength (c :: cs) = c.utf8Size + byteLength cs := by
  rw [← List.singleton_append, byteLength_append, byteLength, ← String.singleton_eq_ofList,
    String.utf8ByteSize_singleton]

theorem points_of_position?_eq_none (h : err.position? = none) : Points L n cs err := by
  intro m hm
  rw [h] at hm
  cases hm

/-- What has been read is put in front of the rest of the text, if it determines which rests
    are in the language; only rests count that start as the one at hand. -/
theorem Points.behind {front : List Char} (h : Points L' (n + byteLength front) cs err)
    (hviable : ∀ rest, L' rest → L (front ++ rest))
    (hdead : ∀ rest, rest.head? = cs.head? → L (front ++ rest) → L' rest) :
    Points L n (front ++ cs) err := by
  intro m hm
  obtain ⟨before, after, rfl, hposition, hfault, hfound⟩ := h m hm
  refine ⟨front ++ before, after, List.append_assoc _ _ _ |>.symm, ?_, ⟨?_, ?_⟩, hfound⟩
  · rw [byteLength_append, ← hposition, Nat.add_assoc]
  · obtain ⟨more, hmore⟩ := hfault.viable
    exact ⟨more, by rw [List.append_assoc]; exact hviable _ hmore⟩
  · intro c hc more hL
    rw [List.append_assoc] at hL
    refine hfault.dead c hc more (hdead _ ?_ hL)
    rw [List.head?_append, List.head?_append, hc]
    rfl

/-! ## Languages -/

/-- Further elements: what can follow a segment. -/
def IsElements (cs : List Char) : Prop :=
  ∃ ss, SpellsElements cs ss

/-- A bare segment and further elements: what can follow a dot. -/
def IsDotted (cs : List Char) : Prop :=
  ∃ run rest s, cs = run ++ rest ∧ SpellsBare run s ∧ IsElements rest

/-- The inside of a bracket with its end, and further elements: what can follow an opening
    bracket. -/
def IsBracketed (cs : List Char) : Prop :=
  ∃ inside rest s, '[' :: cs = inside ++ rest ∧ SpellsBracket inside s ∧ IsElements rest

/-- A key path. -/
def IsPath (cs : List Char) : Prop :=
  ∃ p, Spells cs p

theorem isElements_nil : IsElements [] :=
  ⟨[], .nil⟩

theorem isElements_dot_iff : IsElements ('.' :: cs) ↔ IsDotted cs := by
  constructor
  · rintro ⟨ss, h⟩
    generalize htext : '.' :: cs = text at h
    cases h with
    | nil => cases htext
    | dot first more => exact ⟨_, _, _, (List.cons.inj htext).2, first, _, more⟩
    | bracket first more =>
      obtain ⟨inside, rfl, -⟩ := bracket_of_spellsBracket first
      cases htext
  · rintro ⟨run, rest, s, rfl, first, ss, more⟩
    exact ⟨s :: ss, .dot first more⟩

theorem isElements_bracket_iff : IsElements ('[' :: cs) ↔ IsBracketed cs := by
  constructor
  · rintro ⟨ss, h⟩
    generalize htext : '[' :: cs = text at h
    cases h with
    | nil => cases htext
    | dot first more => cases htext
    | bracket first more => exact ⟨_, _, _, htext, first, _, more⟩
  · rintro ⟨inside, rest, s, htext, first, ss, more⟩
    exact ⟨s :: ss, htext ▸ .bracket first more⟩

theorem SpellsBare.all_not_isReserved {run : List Char} {s : Segment} (h : SpellsBare run s) :
    run.all (!isReserved ·) := by
  rw [List.all_eq_true]
  intro c hc
  simp [h.not_isReserved c hc]

/-- The bare segment that a text starts with ends before the first reserved character. -/
theorem isDotted_append_iff {run rest : List Char} (hrun : run.all (!isReserved ·))
    (hrest : ∀ c, rest.head? = some c → isReserved c) :
    IsDotted (run ++ rest) ↔ (∃ s, SpellsBare run s) ∧ IsElements rest := by
  constructor
  · rintro ⟨run', rest', s, htext, first, more⟩
    have hrest' (c : Char) (hc : rest'.head? = some c) : (!isReserved c) = false := by
      obtain ⟨ss, more⟩ := more
      rcases more.startsElement c hc with rfl | rfl <;> decide
    have hend (c : Char) (hc : rest.head? = some c) : (!isReserved c) = false := by
      simp [hrest c hc]
    have htake := Text.takeWhile_run hrun hend
    have hdrop := Text.dropWhile_run hrun hend
    rw [htext, Text.takeWhile_run first.all_not_isReserved hrest'] at htake
    rw [htext, Text.dropWhile_run first.all_not_isReserved hrest'] at hdrop
    subst htake hdrop
    exact ⟨⟨s, first⟩, more⟩
  · rintro ⟨⟨s, first⟩, more⟩
    exact ⟨run, rest, s, rfl, first, more⟩

/-- What can follow an opening bracket is told by the reader, at any position. -/
theorem isBracketed_iff (n : Nat) :
    IsBracketed cs ↔ ∃ e, bracket n cs = .ok e ∧ IsElements e.rest := by
  constructor
  · rintro ⟨inside, rest, s, htext, first, more⟩
    obtain ⟨cs', rfl, hread⟩ := bracket_of_spellsBracket first
    obtain rfl : cs = cs' ++ rest := (List.cons.inj htext).2
    obtain ⟨e, he, -, hrest⟩ := hread n rest
    exact ⟨e, he, by rwa [hrest]⟩
  · rintro ⟨e, he, more⟩
    obtain ⟨inside, htext, first⟩ := spellsBracket_of_bracket he
    exact ⟨inside, e.rest, e.segment, htext, first, more⟩

theorem isPath_bracket_iff : IsPath ('[' :: cs) ↔ IsBracketed cs := by
  rw [← isElements_bracket_iff]
  constructor
  · rintro ⟨p, h⟩
    have hread := ofChars_of_spells h
    rw [ofChars_of_bracket] at hread
    obtain ⟨ss, hss, -⟩ := Except.map_eq_ok_iff.1 hread
    exact ⟨ss, spellsElements_of_elements hss⟩
  · rintro ⟨ss, h⟩
    refine ⟨⟨ss⟩, spells_of_ofChars ?_⟩
    rw [ofChars_of_bracket, elements_of_spellsElements h]
    rfl

/-- Blanks are a bare segment, if there are some. -/
theorem isDotted_of_allBlank (h : Text.allBlank cs) (hne : cs ≠ []) : IsDotted cs := by
  have hblank := List.all_eq_true.1 h
  refine ⟨cs, [], _, cs.append_nil.symm, .key (fun c hc => ?_) ?_, isElements_nil⟩
  · by_contra hreserved
    rw [Bool.not_eq_false] at hreserved
    simpa [isBlank_of_isReserved hreserved] using hblank c hc
  · obtain ⟨c, cs, rfl⟩ := List.exists_cons_of_ne_nil hne
    refine ⟨c, List.mem_cons_self, ?_⟩
    by_contra hdigit
    rw [Bool.not_eq_false] at hdigit
    simpa [isBlank_of_isDigit hdigit] using hblank c List.mem_cons_self

theorem isPath_of_isDotted (h : IsDotted cs) : IsPath cs := by
  obtain ⟨run, rest, s, rfl, first, ss, more⟩ := h
  cases hblank : Text.allBlank (run ++ rest) with
  | true => exact ⟨_, .root hblank⟩
  | false => exact ⟨_, .path hblank (.inl first) more⟩

/-- A path that does not start with a bracket starts as if a dot were before it. -/
theorem isDotted_of_isPath (h : IsPath cs) (hne : cs ≠ []) (hhead : cs.head? ≠ some '[') :
    IsDotted cs := by
  obtain ⟨p, h⟩ := h
  cases h with
  | root blank => exact isDotted_of_allBlank blank hne
  | path _ first more =>
    rcases first with first | first
    · exact ⟨_, _, _, rfl, first, _, more⟩
    · obtain ⟨inside, rfl, -⟩ := bracket_of_spellsBracket first
      exact absurd rfl hhead

/-! ## The parts of the reader -/

theorem position?_of_index? {ds : List Char} (h : index? ds = .error err) :
    err.position? = none := by
  rw [index?] at h
  split at h
  · cases h
  · cases h
    rfl

theorem firstFault_run {run rest : List Char} (hrun : run.all (!isReserved ·))
    (hrest : ∀ c, rest.head? = some c → isReserved c)
    (hfault : run = [] ∨ ∀ c, rest.head? = some c → c ≠ '.' ∧ c ≠ '[') :
    FirstFault IsDotted run rest := by
  refine ⟨⟨['a'], run ++ ['a'], [], _, (List.append_nil _).symm, .key (fun c hc => ?_) ?_,
    isElements_nil⟩, fun c hc more h => ?_⟩
  · rcases List.mem_append.1 hc with hc | hc
    · simpa using List.all_eq_true.1 hrun c hc
    · obtain rfl := List.mem_singleton.1 hc
      decide
  · exact ⟨'a', List.mem_append_right _ (List.mem_singleton_self _), by decide⟩
  · have hhead : ∀ d, (c :: more).head? = some d → isReserved d := by
      rintro d ⟨⟩
      exact hrest c hc
    obtain ⟨⟨s, first⟩, ss, more⟩ := (isDotted_append_iff hrun hhead).1 h
    rcases hfault with hempty | hfault
    · exact first.ne_nil hempty
    · exact (more.startsElement c rfl).elim (hfault c hc).1 (hfault c hc).2

/-- A bare segment is refused at a character that cannot follow one. -/
theorem points_unexpected {run rest : List Char} {d : Char} (hrun : run.all (!isReserved ·))
    (hhead : rest.head? = some d) (hreserved : isReserved d) (hd : d ≠ '.' ∧ d ≠ '[') (n : Nat) :
    Points IsDotted n (run ++ rest) (.unexpected d (n + byteLength run)) := by
  rintro m ⟨⟩
  have hrest {P : Char → Prop} (h : P d) : ∀ c, rest.head? = some c → P c := by
    intro c hc
    obtain rfl := Option.some.inj (hhead.symm.trans hc)
    exact h
  refine ⟨run, rest, rfl, rfl, firstFault_run hrun (hrest hreserved) (.inr (hrest hd)), ?_⟩
  rintro c ⟨⟩
  exact hhead

/-- A bare segment is refused at a character that cannot follow one, or where it is empty. -/
theorem points_bare (h : bare n cs = .error err) : Points IsDotted n cs err := by
  obtain ⟨run, rest, rfl, hrun, hend⟩ := Text.exists_run (!isReserved ·) cs
  unfold bare at h
  simp only [Text.takeWhile_run hrun hend, Text.dropWhile_run hrun hend] at h
  split at h
  · next hhead =>
    cases h
    exact points_unexpected hrun hhead (by decide) (by decide) n
  · next hhead =>
    cases h
    exact points_unexpected hrun hhead (by decide) (by decide) n
  · split at h
    · next hempty =>
      rw [List.isEmpty_iff] at hempty
      subst hempty
      cases h
      rintro m ⟨⟩
      have hrest (c : Char) (hc : rest.head? = some c) : isReserved c := by
        simpa using hend c hc
      exact ⟨[], rest, rfl, rfl, firstFault_run hrun hrest (.inl rfl), fun _ hc => by cases hc⟩
    · split at h
      · exact points_of_position?_eq_none (position?_of_index? (Except.map_eq_error_iff.1 h))
      · cases h

/-- A key up to its quote is as long as the reader says. -/
theorem byteLength_of_unquote {key rest : List Char} {size : Nat}
    (h : unquote cs = some (key, size, rest)) : byteLength cs = size + byteLength rest := by
  fun_induction unquote cs generalizing key size with
  | case1 | case3 => cases h
  | case2 rest =>
    cases h
    exact byteLength_cons _ _
  | case4 c cs ih =>
    obtain ⟨⟨key, m, rest⟩, hrest, he⟩ := Option.map_eq_some_iff.1 h
    cases he
    have hbackslash : '\\'.utf8Size = 1 := rfl
    rw [byteLength_cons, byteLength_cons, ih hrest, hbackslash]
    omega
  | case5 c cs _ _ _ ih =>
    obtain ⟨⟨key, m, rest⟩, hrest, he⟩ := Option.map_eq_some_iff.1 h
    cases he
    rw [byteLength_cons, ih hrest, Nat.add_assoc]

theorem closeBracket_of_ne {s : Segment} {c : Char} {cs rest : List Char}
    {le : (c :: rest).length ≤ cs.length} (h : c ≠ ']') :
    closeBracket s n (c :: rest) le = .error (.expectedBracket c n) := by
  simp [closeBracket]

/-- What stands in a bracket before its end: where it is read, only the end can follow. -/
theorem points_closeBracket {front rest : List Char} {s : Segment}
    (hread : ∀ rest' : List Char, rest'.head? = rest.head? ∨ rest'.head? = some ']' →
      ∃ le, bracket n (front ++ rest') = closeBracket s (n + byteLength front) rest' le)
    (h : bracket n (front ++ rest) = .error err) : Points IsBracketed n (front ++ rest) err := by
  obtain ⟨le, hclose⟩ := hread rest (.inl rfl)
  rw [hclose] at h
  cases rest with
  | nil =>
    cases h
    exact points_of_position?_eq_none rfl
  | cons c rest =>
    by_cases hc : c = ']'
    · subst hc
      cases h
    · rw [closeBracket_of_ne hc] at h
      cases h
      rintro m ⟨⟩
      refine ⟨front, c :: rest, rfl, rfl, ⟨⟨[']'], ?_⟩, ?_⟩, fun _ => id⟩
      · obtain ⟨le, hclosed⟩ := hread [']'] (.inr rfl)
        exact (isBracketed_iff n).2 ⟨_, hclosed, isElements_nil⟩
      · rintro d ⟨⟩ more hmore
        obtain ⟨e, he, -⟩ := (isBracketed_iff n).1 hmore
        obtain ⟨le, hopen⟩ := hread (c :: more) (.inl rfl)
        rw [hopen, closeBracket_of_ne hc] at he
        cases he

/-- A quoted key is read up to its quote, whatever follows it. -/
theorem bracket_of_spellsKey {quoted key : List Char} (h : SpellsKey quoted key) (n : Nat)
    (rest : List Char) :
    ∃ le, bracket n ('\'' :: quoted ++ ['\''] ++ rest) =
      closeBracket (.key (String.ofList key)) (n + byteLength ('\'' :: quoted ++ ['\'']))
        rest le := by
  obtain ⟨size, hkey⟩ := unquote_of_spellsKey h rest
  have hsize : n + 1 + size = n + byteLength ('\'' :: quoted ++ ['\'']) := by
    have hlength := byteLength_of_unquote hkey
    have hquote : '\''.utf8Size = 1 := rfl
    have hnil : byteLength [] = 0 := rfl
    rw [byteLength_append, byteLength_cons, hquote] at hlength
    rw [byteLength_append, byteLength_cons, byteLength_cons, hquote, hnil]
    omega
  have htext : '\'' :: quoted ++ ['\''] ++ rest = '\'' :: (quoted ++ '\'' :: rest) := by simp
  rw [htext, bracket_of_quote n hkey, hsize]
  exact ⟨_, rfl⟩

/-- An index is read up to the first character that is no digit. -/
theorem bracket_of_digits {ds rest : List Char} {s : Segment} (hne : ds ≠ [])
    (hdigits : ds.all Text.isDigit) (hindex : index? ds = .ok s)
    (hend : ∀ c, rest.head? = some c → Text.isDigit c = false) (n : Nat) :
    ∃ le, bracket n (ds ++ rest) = closeBracket s (n + byteLength ds) rest le := by
  have hhead : (ds ++ rest).head? ≠ some '\'' := by
    obtain ⟨d, ds, rfl⟩ := List.exists_cons_of_ne_nil hne
    rintro ⟨⟩
    simp [Text.isDigit] at hdigits
  rw [bracket_of_head n hhead]
  simp only [Text.takeWhile_run hdigits hend, Text.dropWhile_run hdigits hend, List.isEmpty_iff,
    hne, if_false, hindex]
  exact ⟨(List.suffix_append ds rest).length_le, rfl⟩

/-- A bracket is refused where it holds neither a digit nor a quote, or where it has to end. -/
theorem points_bracket (h : bracket n cs = .error err) : Points IsBracketed n cs err := by
  by_cases hhead : cs.head? = some '\''
  · obtain ⟨cs, rfl⟩ := List.head?_eq_some_iff.1 hhead
    cases hkey : unquote cs with
    | none =>
      rw [bracket_of_no_quote n hkey] at h
      cases h
      exact points_of_position?_eq_none rfl
    | some read =>
      obtain ⟨key, size, rest⟩ := read
      obtain ⟨quoted, rfl, hquoted⟩ := spellsKey_of_unquote hkey
      have htext : '\'' :: (quoted ++ '\'' :: rest) = '\'' :: quoted ++ ['\''] ++ rest := by simp
      rw [htext] at h ⊢
      exact points_closeBracket (fun rest' _ => bracket_of_spellsKey hquoted n rest') h
  · obtain ⟨ds, rest, rfl, hdigits, hend⟩ := Text.exists_run Text.isDigit cs
    by_cases hne : ds = []
    · subst hne
      -- Neither a quote nor a digit is there, whatever follows.
      have hempty {rest' : List Char} (hsame : rest'.head? = rest.head?) :
          bracket n rest' = .error (.expectedIndex n) := by
        have htake : ([] ++ rest').takeWhile Text.isDigit = [] :=
          Text.takeWhile_run rfl (hsame.symm ▸ hend)
        rw [bracket_of_head n (hsame.symm ▸ hhead)]
        rw [List.nil_append] at htake
        simp [htake]
      cases h.symm.trans (hempty rfl)
      rintro m ⟨⟩
      refine ⟨[], rest, rfl, rfl, ⟨⟨['0', ']'], ?_⟩, fun c hc more hmore => ?_⟩,
        fun _ hc => by cases hc⟩
      · exact (isBracketed_iff 0).2 ⟨_, rfl, isElements_nil⟩
      · obtain ⟨e, he, -⟩ := (isBracketed_iff n).1 hmore
        cases he.symm.trans (hempty hc.symm)
    · cases hindex : index? ds with
      | error cause =>
        rw [bracket_of_head n hhead] at h
        simp only [Text.takeWhile_run hdigits hend, List.isEmpty_iff, hne, if_false, hindex] at h
        cases h
        exact points_of_position?_eq_none (position?_of_index? hindex)
      | ok s =>
        refine points_closeBracket (s := s) (fun rest' hrest' => ?_) h
        refine bracket_of_digits hne hdigits hindex (fun c hc => ?_) n
        rcases hrest' with hsame | hbracket
        · exact hend c (hsame ▸ hc)
        · obtain rfl := Option.some.inj (hbracket.symm.trans hc)
          decide

/-! ## Whole texts -/

/-- A bare segment that is read ends where another element starts, and the position behind it
    is that of the text behind it. -/
theorem of_bare {e : Element cs} (h : bare n cs = .ok e) :
    StartsElement e.rest ∧ e.position + byteLength e.rest = n + byteLength cs := by
  obtain ⟨run, rest, rfl, hrun, hend⟩ := Text.exists_run (!isReserved ·) cs
  unfold bare at h
  simp only [Text.takeWhile_run hrun hend, Text.dropWhile_run hrun hend] at h
  split at h
  · cases h
  · cases h
  · next hbracket hquote =>
    have hstarts : StartsElement rest := by
      intro c hc
      have hreserved : isReserved c := by simpa using hend c hc
      simp only [isReserved, Bool.or_eq_true, beq_iff_eq] at hreserved
      rcases hreserved with ((hdot | hopen) | rfl) | rfl
      · exact .inl hdot
      · exact .inr hopen
      · exact absurd hc hbracket
      · exact absurd hc hquote
    rw [byteLength_append, ← Nat.add_assoc]
    split at h
    · cases h
    · split at h
      · obtain ⟨s, -, rfl⟩ := Except.map_eq_ok_iff.1 h
        exact ⟨hstarts, rfl⟩
      · cases h
        exact ⟨hstarts, rfl⟩

theorem position_of_closeBracket {s : Segment} {rest : List Char} {le : rest.length ≤ cs.length}
    {e : Element cs} (h : closeBracket s n rest le = .ok e) :
    e.position + byteLength e.rest = n + byteLength rest := by
  unfold closeBracket at h
  split at h
  · cases h
  · cases h
    have hend : ']'.utf8Size = 1 := rfl
    rw [byteLength_cons, hend, Nat.add_assoc]
  · cases h

/-- The position behind a bracket is that of the text behind it. -/
theorem position_of_bracket {e : Element cs} (h : bracket n cs = .ok e) :
    e.position + byteLength e.rest = n + byteLength cs := by
  by_cases hhead : cs.head? = some '\''
  · obtain ⟨cs, rfl⟩ := List.head?_eq_some_iff.1 hhead
    cases hkey : unquote cs with
    | none =>
      rw [bracket_of_no_quote n hkey] at h
      cases h
    | some read =>
      obtain ⟨key, size, rest⟩ := read
      rw [bracket_of_quote n hkey] at h
      have hquote : '\''.utf8Size = 1 := rfl
      rw [position_of_closeBracket h, byteLength_cons, hquote, byteLength_of_unquote hkey]
      omega
  · obtain ⟨ds, rest, rfl, hdigits, hend⟩ := Text.exists_run Text.isDigit cs
    rw [bracket_of_head n hhead] at h
    simp only [Text.takeWhile_run hdigits hend, Text.dropWhile_run hdigits hend] at h
    split at h
    · cases h
    · obtain ⟨s, -, hclose⟩ := Except.bind_eq_ok_iff.1 h
      rw [position_of_closeBracket hclose, byteLength_append, Nat.add_assoc]

/-- An error behind a bare segment points at the first fault from the segment on. -/
theorem Points.behind_bare {e : Element cs} (he : bare n cs = .ok e)
    (h : Points IsElements e.position e.rest err) : Points IsDotted n cs err := by
  obtain ⟨run, hcs, first⟩ := spellsBare_of_bare he
  obtain ⟨hstarts, hbehind⟩ := of_bare he
  have hposition : e.position = n + byteLength run := by
    rw [congrArg byteLength hcs, byteLength_append] at hbehind
    omega
  rw [hposition] at h
  have hpoints : Points IsDotted n (run ++ e.rest) err := by
    refine h.behind (fun rest more => ⟨run, rest, _, rfl, first, more⟩) fun rest hhead hrest => ?_
    refine ((isDotted_append_iff first.all_not_isReserved fun c hc => ?_).1 hrest).2
    rcases hstarts c (hhead ▸ hc) with rfl | rfl <;> decide
  rwa [← hcs] at hpoints

/-- An error behind a bracket points at the first fault from its inside on. -/
theorem Points.behind_bracket {e : Element cs} (he : bracket n cs = .ok e)
    (h : Points IsElements e.position e.rest err) : Points IsBracketed n cs err := by
  obtain ⟨inside, hcs, first⟩ := spellsBracket_of_bracket he
  obtain ⟨front, rfl, hread⟩ := bracket_of_spellsBracket first
  obtain hcs : cs = front ++ e.rest := (List.cons.inj hcs).2
  have hposition : e.position = n + byteLength front := by
    have hbehind := position_of_bracket he
    rw [congrArg byteLength hcs, byteLength_append] at hbehind
    omega
  rw [hposition] at h
  have hpoints : Points IsBracketed n (front ++ e.rest) err := by
    refine h.behind (fun rest more => ⟨_, rest, _, rfl, first, more⟩) fun rest _ hrest => ?_
    obtain ⟨e', he', more⟩ := (isBracketed_iff n).1 hrest
    obtain ⟨e'', he'', -, hrest'⟩ := hread n rest
    obtain rfl := Except.ok.inj (he'.symm.trans he'')
    rwa [hrest'] at more
  rwa [← hcs] at hpoints

/-- A bare segment and what is behind it are refused at the first fault of either. -/
theorem points_bare_behind {α : Type} {result : Element cs → List Segment → α}
    (hmore : ∀ e : Element cs, elements e.position e.rest = .error err →
      Points IsElements e.position e.rest err)
    (h : ((bare n cs).bind fun e => (elements e.position e.rest).bind fun more =>
      .ok (result e more)) = .error err) : Points IsDotted n cs err := by
  rcases Except.bind_eq_error_iff.1 h with h | ⟨e, he, h⟩
  · exact points_bare h
  · rcases Except.bind_eq_error_iff.1 h with h | ⟨more, -, h⟩
    · exact (hmore e h).behind_bare he
    · cases h

theorem points_elements (h : elements n cs = .error err) : Points IsElements n cs err := by
  fun_induction elements n cs with
  | case1 => cases h
  | case2 n rest ih =>
    have hpoints : Points IsDotted (n + byteLength ['.']) rest err := points_bare_behind ih h
    exact hpoints.behind (fun _ => isElements_dot_iff.2) fun _ _ => isElements_dot_iff.1
  | case3 n rest ih =>
    have hpoints : Points IsBracketed (n + byteLength ['[']) rest err := by
      rcases Except.bind_eq_error_iff.1 h with h | ⟨e, he, h⟩
      · exact points_bracket h
      · rcases Except.bind_eq_error_iff.1 h with h | ⟨more, -, h⟩
        · exact (ih e h).behind_bracket he
        · cases h
    exact hpoints.behind (fun _ => isElements_bracket_iff.2) fun _ _ => isElements_bracket_iff.1
  | case4 n c rest hdot hbracket =>
    cases h
    rintro m ⟨⟩
    refine ⟨[], c :: rest, rfl, rfl, ⟨⟨[], isElements_nil⟩, ?_⟩, fun _ => id⟩
    rintro d ⟨⟩ more ⟨ss, hmore⟩
    rcases hmore.startsElement c rfl with rfl | rfl
    · exact hdot rfl
    · exact hbracket rfl

/-- Behind an opening bracket, a path is a list of elements. -/
theorem Points.of_elements {cs : List Char} (h : Points IsElements n ('[' :: cs) err) :
    Points IsPath n ('[' :: cs) err := by
  have hiff (rest : List Char) : IsPath ('[' :: rest) ↔ IsElements ('[' :: rest) :=
    isPath_bracket_iff.trans isElements_bracket_iff.symm
  intro m hm
  obtain ⟨before, after, hcs, hposition, hfault, hfound⟩ := h m hm
  cases before with
  | nil =>
    -- The bracket itself is no fault.
    have hindex : IsElements ['[', '0', ']'] := by
      refine isElements_bracket_iff.2 ((isBracketed_iff 0).2 ⟨_, rfl, isElements_nil⟩)
    exact absurd hindex (hfault.dead '[' (congrArg List.head? hcs).symm ['0', ']'])
  | cons c before =>
    obtain rfl : '[' = c := (List.cons.inj hcs).1
    obtain ⟨more, hmore⟩ := hfault.viable
    refine ⟨'[' :: before, after, hcs, hposition, ⟨⟨more, (hiff _).2 hmore⟩, ?_⟩, hfound⟩
    exact fun c hc more hpath => hfault.dead c hc more ((hiff _).1 hpath)

/-- The error with which a text is refused points at the first fault of the text. -/
theorem points_ofChars (h : ofChars cs = .error err) : Points IsPath 0 cs err := by
  have hblank : Text.allBlank cs = false := by
    by_contra hblank
    rw [Bool.not_eq_false] at hblank
    cases h.symm.trans (ofChars_of_spells (.root hblank))
  by_cases hhead : cs.head? = some '['
  · obtain ⟨cs, rfl⟩ := List.head?_eq_some_iff.1 hhead
    rw [ofChars_of_bracket, Except.map_eq_error_iff] at h
    exact (points_elements h).of_elements
  · have hpoints : Points IsDotted 0 cs err := by
      rw [ofChars, hblank, if_neg hhead] at h
      exact points_bare_behind (fun _ => points_elements) h
    change Points IsPath 0 ([] ++ cs) err
    refine hpoints.behind (fun _ => isPath_of_isDotted) fun rest hsame hrest => ?_
    refine isDotted_of_isPath hrest ?_ (hsame ▸ hhead)
    rintro rfl
    obtain rfl := List.head?_eq_none_iff.1 hsame.symm
    cases hblank

/-- Where the message of a refusal ends in a position, it is the length in bytes of a first part
    of the text, which can be continued to a path, but not with the character that comes next;
    and a character in quotes that the message has before the position is this character. -/
theorem parse_error_position {text front : String} {cause : SyntaxError} {n : Nat}
    (h : parse text = .error cause)
    (hmessage : cause.message = front ++ " at position " ++ toString n) :
    ∃ before after, text = before ++ after ∧ before.utf8ByteSize = n ∧
      (∃ more p, parse (before ++ more) = .ok p) ∧
      (∀ c, after.toList.head? = some c →
        ∀ more, ∃ cause, parse (before ++ String.singleton c ++ more) = .error cause) ∧
      ∀ said c, front = said ++ " '" ++ String.singleton c ++ "'" →
        after.toList.head? = some c := by
  obtain ⟨hposition, hfound⟩ := SyntaxError.names_of_message hmessage
  obtain ⟨before, after, htext, hlength, hfault, hpointed⟩ := points_ofChars h n hposition
  refine ⟨String.ofList before, String.ofList after, ?_, ?_, ?_, fun c hc more => ?_, ?_⟩
  · rw [← String.ofList_append, ← htext, String.ofList_toList]
  · rwa [Nat.zero_add] at hlength
  · obtain ⟨more, p, hp⟩ := hfault.viable
    refine ⟨String.ofList more, p, ?_⟩
    rw [parse, ← String.ofList_append, String.toList_ofList]
    exact ofChars_of_spells hp
  · cases hparse : parse (String.ofList before ++ String.singleton c ++ more) with
    | error cause => exact ⟨cause, rfl⟩
    | ok p =>
      rw [String.toList_ofList] at hc
      have hp := spells_of_ofChars hparse
      simp only [String.toList_append, String.toList_ofList, String.toList_singleton,
        List.append_assoc, List.singleton_append] at hp
      exact absurd ⟨p, hp⟩ (hfault.dead c hc more.toList)
  · intro said c hsaid
    rw [String.toList_ofList]
    exact hpointed c (hfound said c hsaid)

theorem parse_error_position_of_unclosed :
    parse "é['😀'x.y" = .error (.expectedBracket 'x' 9) ∧
      (SyntaxError.expectedBracket 'x' 9).message =
        "expected ']' but found 'x'" ++ " at position " ++ toString 9 ∧
      ∃ before after, "é['😀'x.y" = before ++ after ∧ before.utf8ByteSize = 9 ∧
        after.toList.head? = some 'x' := by
  have h : parse "é['😀'x.y" = .error (.expectedBracket 'x' 9) := by decide +kernel
  have hmessage : (SyntaxError.expectedBracket 'x' 9).message =
      "expected ']' but found 'x'" ++ " at position " ++ toString 9 := by decide +kernel
  obtain ⟨before, after, htext, hlength, -, -, hhead⟩ := parse_error_position h hmessage
  exact ⟨h, hmessage, before, after, htext, hlength, hhead "expected ']' but found" 'x' rfl⟩

end ManifestBundle.KeyPath
