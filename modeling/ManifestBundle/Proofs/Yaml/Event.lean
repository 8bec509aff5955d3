import ManifestBundle.Proofs.Yaml.Token.Stream
import ManifestBundle.Yaml.Event

/-!
# Telling the events of a value

The events of a value (`nodeEvents`), and that its tokens tell them. The reader of events
is a machine with a stack of what is expected; `Tells` is a run of it, with the number of
its steps, so that runs are put together and the steps of a whole stream are counted.
-/

namespace ManifestBundle.Yaml

/-! ## Events of a value -/

mutual

/-- The events of a value. -/
def nodeEvents : Value → List Event
  | .null => [.scalar {} ['n', 'u', 'l', 'l'] true]
  | .bool true => [.scalar {} ['t', 'r', 'u', 'e'] true]
  | .bool false => [.scalar {} ['f', 'a', 'l', 's', 'e'] true]
  | .number x => [.scalar {} (printNumber x) true]
  | .text s => [.scalar {} s.toList (ScalarStyle.of s.toList == .plain)]
  | .sequence vs => .sequenceStart {} :: itemEvents vs ++ [.sequenceEnd]
  | .map es => .mappingStart {} :: entryEvents es ++ [.mappingEnd]
termination_by structural v => v

/-- The events of the items of a sequence. -/
def itemEvents : List Value → List Event
  | [] => []
  | v :: vs => nodeEvents v ++ itemEvents vs
termination_by structural vs => vs

/-- The events of the entries of a map. -/
def entryEvents : List (String × Value) → List Event
  | [] => []
  | (key, v) :: es =>
    .scalar {} key.toList (ScalarStyle.of key.toList == .plain) :: nodeEvents v ++ entryEvents es
termination_by structural es => es

end

/-! ## Runs -/

variable {handles : Handles} {k k' : Nat} {e : Expected} {es es' es'' pieces : List Expected}
  {ts ts' ts'' : List Token} {now now' : List Event}

/-- After `k` steps and the given events other pieces are expected, in front of other
    tokens. -/
def Tells (handles : Handles) (k : Nat) (es : List Expected) (ts : List Token) (now : List Event)
    (es' : List Expected) (ts' : List Token) : Prop :=
  ∀ fuel, events? handles (fuel + k) es ts =
    (events? handles fuel es' ts').map fun p => (now ++ p.1, p.2)

namespace Tells

/-- What an expected piece expands to is one step. -/
theorem step (h : expand? handles e ts = some (now, pieces, ts')) :
    Tells handles 1 (e :: es) ts now (pieces ++ es) ts' := by
  intro fuel
  rw [events?, h]
  simp only [Option.bind_eq_bind, Option.bind_some]
  cases events? handles fuel (pieces ++ es) ts' <;> rfl

theorem refl : Tells handles 0 es ts [] es ts := by
  intro fuel
  rw [Nat.add_zero]
  cases events? handles fuel es ts <;> rfl

/-- Runs are put together, with their steps and events. -/
theorem trans (h : Tells handles k es ts now es' ts')
    (h' : Tells handles k' es' ts' now' es'' ts'') :
    Tells handles (k + k') es ts (now ++ now') es'' ts'' := by
  intro fuel
  have hsplit : fuel + (k + k') = fuel + k' + k := by omega
  rw [hsplit, h, h', Option.map_map]
  congr 1
  funext p
  simp

/-- With fuel enough the whole run is made. -/
theorem run (h : Tells handles k es ts now [] ts') {fuel : Nat} (hf : k ≤ fuel) :
    events? handles fuel es ts = some (now, ts') := by
  obtain ⟨more, rfl⟩ := Nat.exists_eq_add_of_le' hf
  rw [h more]
  cases more <;> simp [events?]

end Tells

/-! ## Nodes -/

/-- The first token of a node that is not left out. -/
def startsNode : Token → Bool
  | .scalar .. | .flowSequenceStart | .flowMappingStart | .blockSequenceStart
  | .blockMappingStart => true
  | _ => false

/-- What starts a node neither ends a collection nor introduces a part of one. -/
theorem ne_of_startsNode {t : Token} (h : startsNode t) :
    t ≠ .blockEntry ∧ t ≠ .blockEnd ∧ t ≠ .key ∧ t ≠ .value := by
  refine ⟨?_, ?_, ?_, ?_⟩ <;>
    · rintro rfl
      nomatch h

/-- The tokens of a value start with one that starts a node. -/
theorem exists_startsNode (v : Value) : ∃ t ts, nodeTokens false v = t :: ts ∧ startsNode t := by
  cases v with
  | null | number _ | text _ => exact ⟨_, _, rfl, rfl⟩
  | bool b => cases b <;> exact ⟨_, _, rfl, rfl⟩
  | sequence vs => cases vs <;> exact ⟨_, _, rfl, rfl⟩
  | map es => cases es <;> exact ⟨_, _, rfl, rfl⟩

/-- A sequence without marks starts with the hyphen of its first item. -/
theorem exists_startsValue (indentless : Bool) (v : Value) :
    ∃ t ts, nodeTokens indentless v = t :: ts ∧ (startsNode t ∨ t = .blockEntry) := by
  by_cases h : ∃ w ws, v = .sequence (w :: ws)
  · obtain ⟨w, ws, rfl⟩ := h
    cases indentless with
    | true => exact ⟨_, _, rfl, .inr rfl⟩
    | false => exact ⟨_, _, rfl, .inl rfl⟩
  · rw [nodeTokens_of_not_sequence fun w ws hv => h ⟨w, ws, hv⟩]
    obtain ⟨t, ts, hts, ht⟩ := exists_startsNode v
    exact ⟨t, ts, hts, .inl ht⟩

/-- Behind an indicator a node is expected if none is left out there. -/
theorem orMissing_of_not_end {ends : Token → Bool} {t : Token} (h : ends t = false)
    (node : Expected) (pieces : List Expected) (ts : List Token) :
    orMissing ends node pieces (t :: ts) = some ([], node :: pieces, t :: ts) := by
  rw [orMissing, h, if_neg Bool.false_ne_true]

/-- No sequence without marks goes on here. -/
def EndsItems (ts : List Token) : Prop :=
  ∃ t ts', ts = t :: ts' ∧ t ≠ .blockEntry

/-- The tokens of the value tell its events, wherever a node is expected. -/
def NodeTold (handles : Handles) (v : Value) : Prop :=
  ∀ ⦃indentless allowed : Bool⦄ ⦃es : List Expected⦄ ⦃ts : List Token⦄,
    (indentless → allowed ∧ EndsItems ts) →
    ∃ k, k ≤ 3 * (nodeTokens indentless v).length ∧
      Tells handles k (.node true allowed :: es) (nodeTokens indentless v ++ ts) (nodeEvents v)
        es ts

/-- The tokens of the items tell their events, in a sequence with or without marks. -/
def ItemsTold (handles : Handles) (vs : List Value) : Prop :=
  ∀ ⦃p : Expected⦄ ⦃es : List Expected⦄ ⦃ts : List Token⦄,
    p = .blockEntries ∨ p = .indentlessEntries →
    ∃ k, k + 2 * vs.length ≤ 3 * (itemTokens vs).length ∧
      Tells handles k (p :: es) (itemTokens vs ++ ts) (itemEvents vs) (p :: es) ts

/-- The tokens of the entries tell their events. -/
def EntriesTold (handles : Handles) (entries : List (String × Value)) : Prop :=
  ∀ ⦃es : List Expected⦄ ⦃ts : List Token⦄, EndsItems ts →
    ∃ k, k ≤ 3 * (entryTokens entries).length ∧
      Tells handles k (.blockKey :: es) (entryTokens entries ++ ts) (entryEvents entries)
        (.blockKey :: es) ts

/-- A scalar is told in one step. -/
theorem tells_scalar (allowed : Bool) (cs : List Char) (isPlain : Bool) (es : List Expected)
    (ts : List Token) : Tells handles 1 (.node true allowed :: es) (.scalar cs isPlain :: ts)
      [.scalar {} cs isPlain] es ts := by
  have h : expand? handles (.node true allowed) (.scalar cs isPlain :: ts) =
      some ([.scalar {} cs isPlain], [], ts) := rfl
  exact .step h

theorem tells_emptySequence (allowed : Bool) (es : List Expected) (ts : List Token) :
    Tells handles 2 (.node true allowed :: es) (.flowSequenceStart :: .flowSequenceEnd :: ts)
      [.sequenceStart {}, .sequenceEnd] es ts := by
  have hstart : expand? handles (.node true allowed)
      (.flowSequenceStart :: .flowSequenceEnd :: ts) =
      some ([.sequenceStart {}], [.flowEntries true], .flowSequenceEnd :: ts) := rfl
  have hend : expand? handles (.flowEntries true) (.flowSequenceEnd :: ts) =
      some ([.sequenceEnd], [], ts) := rfl
  exact (Tells.step hstart).trans (.step hend)

theorem tells_emptyMapping (allowed : Bool) (es : List Expected) (ts : List Token) :
    Tells handles 2 (.node true allowed :: es) (.flowMappingStart :: .flowMappingEnd :: ts)
      [.mappingStart {}, .mappingEnd] es ts := by
  have hstart : expand? handles (.node true allowed)
      (.flowMappingStart :: .flowMappingEnd :: ts) =
      some ([.mappingStart {}], [.flowKey true], .flowMappingEnd :: ts) := rfl
  have hend : expand? handles (.flowKey true) (.flowMappingEnd :: ts) =
      some ([.mappingEnd], [], ts) := rfl
  exact (Tells.step hstart).trans (.step hend)

theorem itemsTold_nil : ItemsTold handles [] :=
  fun _ _ _ _ => ⟨0, Nat.le_refl _, .refl⟩

/-- Items are told if the first one is and the others are. -/
theorem itemsTold_cons {v : Value} {vs : List Value} (hv : NodeTold handles v)
    (hvs : ItemsTold handles vs) : ItemsTold handles (v :: vs) := by
  intro p es ts hp
  obtain ⟨t, more, hmore, ht⟩ := exists_startsNode v
  -- The item is not left out behind its hyphen.
  have hentry : expand? handles p (.blockEntry :: (nodeTokens false v ++ (itemTokens vs ++ ts))) =
      some ([], [.node true false, p], nodeTokens false v ++ (itemTokens vs ++ ts)) := by
    obtain ⟨hentry, hend, hkey, hvalue⟩ := ne_of_startsNode ht
    rw [hmore]
    rcases hp with rfl | rfl
    · rw [List.cons_append, expand?]
      exact orMissing_of_not_end (by simp [hentry, hend]) _ _ _
    · rw [List.cons_append, expand?]
      exact orMissing_of_not_end (by simp [hentry, hend, hkey, hvalue]) _ _ _
  obtain ⟨k, hk, hnode⟩ : ∃ k, k ≤ 3 * (nodeTokens false v).length ∧
      Tells handles k (.node true false :: p :: es) (nodeTokens false v ++ (itemTokens vs ++ ts))
        (nodeEvents v) (p :: es) (itemTokens vs ++ ts) := hv fun h => nomatch h
  obtain ⟨k', hk', hitems⟩ : ∃ k, k + 2 * vs.length ≤ 3 * (itemTokens vs).length ∧
      Tells handles k (p :: es) (itemTokens vs ++ ts) (itemEvents vs) (p :: es) ts := hvs hp
  refine ⟨1 + (k + k'), ?_, ?_⟩
  · simp only [itemTokens, List.length_append, List.length_cons]
    omega
  · have htokens : itemTokens (v :: vs) ++ ts =
        .blockEntry :: (nodeTokens false v ++ (itemTokens vs ++ ts)) := by
      rw [itemTokens, List.append_assoc]
      rfl
    rw [htokens]
    exact (Tells.step hentry).trans (hnode.trans hitems)

/-- A sequence around its items, from the token that starts it to the one that ends it. -/
theorem tells_sequence {p : Expected} {vs : List Value} (h : ItemsTold handles vs)
    (hp : p = .blockEntries ∨ p = .indentlessEntries) {allowed : Bool}
    (hstart : expand? handles (.node true allowed) ts =
      some ([.sequenceStart {}], [p], itemTokens vs ++ ts'))
    (hend : expand? handles p ts' = some ([.sequenceEnd], [], ts'')) :
    ∃ k, k + 2 * vs.length ≤ 3 * (itemTokens vs).length + 2 ∧
      Tells handles k (.node true allowed :: es) ts (nodeEvents (.sequence vs)) es ts'' := by
  obtain ⟨k, hk, hitems⟩ : ∃ k, k + 2 * vs.length ≤ 3 * (itemTokens vs).length ∧
      Tells handles k (p :: es) (itemTokens vs ++ ts') (itemEvents vs) (p :: es) ts' := h hp
  refine ⟨1 + (k + 1), by omega, ?_⟩
  have hrun := (Tells.step hstart).trans (hitems.trans (.step hend))
  simpa [nodeEvents] using hrun

/-- A sequence is told if its items are. -/
theorem nodeTold_sequence {v : Value} {vs : List Value} (h : ItemsTold handles (v :: vs)) :
    NodeTold handles (.sequence (v :: vs)) := by
  intro indentless allowed es ts hends
  cases indentless with
  | false =>
    have hstart : expand? handles (.node true allowed)
        (.blockSequenceStart :: (itemTokens (v :: vs) ++ .blockEnd :: ts)) =
        some ([.sequenceStart {}], [.blockEntries], itemTokens (v :: vs) ++ .blockEnd :: ts) := by
      cases allowed <;> rfl
    obtain ⟨k, hk, hrun⟩ := tells_sequence h (.inl rfl) hstart rfl
    refine ⟨k, ?_, ?_⟩
    · simp only [nodeTokens, Bool.false_eq_true, if_false, List.length_append, List.length_cons,
        List.length_nil] at hk ⊢
      omega
    · simpa [nodeTokens] using hrun
  | true =>
    -- Without marks, the sequence ends where no hyphen follows, and the hyphen of its first
    -- item pays for the steps at its start and end.
    obtain ⟨rfl, t, ts', rfl, ht⟩ := hends rfl
    have hstart : expand? handles (.node true true) (itemTokens (v :: vs) ++ t :: ts') =
        some ([.sequenceStart {}], [.indentlessEntries], itemTokens (v :: vs) ++ t :: ts') := rfl
    have hend : expand? handles .indentlessEntries (t :: ts') =
        some ([.sequenceEnd], [], t :: ts') := by
      cases t with
      | blockEntry => exact absurd rfl ht
      | _ => rfl
    obtain ⟨k, hk, hrun⟩ := tells_sequence h (.inr rfl) hstart hend
    refine ⟨k, ?_, ?_⟩
    · simp only [nodeTokens, if_true]
      rw [List.length_cons] at hk
      omega
    · simpa [nodeTokens] using hrun

theorem entriesTold_nil : EntriesTold handles [] :=
  fun _ _ _ => ⟨0, Nat.le_refl _, .refl⟩

theorem endsItems_entryTokens (entries : List (String × Value)) {ts : List Token}
    (h : EndsItems ts) : EndsItems (entryTokens entries ++ ts) := by
  cases entries with
  | nil => exact h
  | cons e entries => exact ⟨.key, _, rfl, by simp⟩

/-- Entries are told if the value of the first one is and the others are. -/
theorem entriesTold_cons (key : String) {v : Value} {entries : List (String × Value)}
    (hv : NodeTold handles v) (hentries : EntriesTold handles entries) :
    EntriesTold handles ((key, v) :: entries) := by
  intro es ts hends
  obtain ⟨t, more, hmore, ht⟩ := exists_startsValue (isSimpleKey key) v
  have hkey (ts : List Token) : expand? handles .blockKey (.key :: textToken key.toList :: ts) =
      some ([], [.node true true, .blockValue], textToken key.toList :: ts) := rfl
  have hvalue (ts : List Token) : expand? handles .blockValue
      (.value :: (nodeTokens (isSimpleKey key) v ++ ts)) =
      some ([], [.node true true, .blockKey], nodeTokens (isSimpleKey key) v ++ ts) := by
    rw [hmore, List.cons_append, expand?]
    refine orMissing_of_not_end ?_ _ _ _
    rcases ht with ht | rfl
    · obtain ⟨-, hend, hkey, hvalue⟩ := ne_of_startsNode ht
      simp [hend, hkey, hvalue]
    · rfl
  obtain ⟨k, hk, hnode⟩ : ∃ k, k ≤ 3 * (nodeTokens (isSimpleKey key) v).length ∧
      Tells handles k (.node true true :: .blockKey :: es)
        (nodeTokens (isSimpleKey key) v ++ (entryTokens entries ++ ts)) (nodeEvents v)
        (.blockKey :: es) (entryTokens entries ++ ts) :=
    -- A sequence without marks ends in front of the next key.
    hv fun _ => ⟨rfl, endsItems_entryTokens entries hends⟩
  obtain ⟨k', hk', hrest⟩ := @hentries es ts hends
  refine ⟨1 + (1 + (1 + (k + k'))), ?_, ?_⟩
  · simp only [entryTokens, List.length_append, List.length_cons]
    omega
  · have htokens : entryTokens ((key, v) :: entries) ++ ts = .key :: textToken key.toList ::
        .value :: (nodeTokens (isSimpleKey key) v ++ (entryTokens entries ++ ts)) := by
      rw [entryTokens]
      simp
    rw [htokens]
    exact (Tells.step (hkey _)).trans ((tells_scalar true _ _ _ _).trans
      ((Tells.step (hvalue _)).trans (hnode.trans hrest)))

/-- A map is told if its entries are. -/
theorem nodeTold_map {e : String × Value} {entries : List (String × Value)}
    (h : EntriesTold handles (e :: entries)) : NodeTold handles (.map (e :: entries)) := by
  intro indentless allowed es ts _
  have hstart : expand? handles (.node true allowed)
      (.blockMappingStart :: (entryTokens (e :: entries) ++ .blockEnd :: ts)) =
      some ([.mappingStart {}], [.blockKey], entryTokens (e :: entries) ++ .blockEnd :: ts) := by
    cases allowed <;> rfl
  have hend : expand? handles .blockKey (.blockEnd :: ts) = some ([.mappingEnd], [], ts) := rfl
  have hends : EndsItems (.blockEnd :: ts) := ⟨.blockEnd, ts, rfl, by simp⟩
  obtain ⟨k, hk, hentries⟩ := @h es _ hends
  refine ⟨1 + (k + 1), ?_, ?_⟩
  · simp only [nodeTokens, List.length_append, List.length_cons, List.length_nil]
    omega
  · have hrun := (Tells.step hstart).trans (hentries.trans (.step hend))
    simpa [nodeTokens, nodeEvents] using hrun

mutual

/-- The tokens of a value tell its events. -/
theorem nodeTold : ∀ v : Value, NodeTold handles v
  | .null => fun _ _ _ _ _ => ⟨1, (by decide : 1 ≤ 3), tells_scalar _ _ _ _ _⟩
  | .bool true => fun _ _ _ _ _ => ⟨1, (by decide : 1 ≤ 3), tells_scalar _ _ _ _ _⟩
  | .bool false => fun _ _ _ _ _ => ⟨1, (by decide : 1 ≤ 3), tells_scalar _ _ _ _ _⟩
  | .number _ => fun _ _ _ _ _ => ⟨1, (by decide : 1 ≤ 3), tells_scalar _ _ _ _ _⟩
  | .text _ => fun _ _ _ _ _ => ⟨1, (by decide : 1 ≤ 3), tells_scalar _ _ _ _ _⟩
  | .sequence [] => fun _ _ _ _ _ => ⟨2, (by decide : 2 ≤ 6), tells_emptySequence _ _ _⟩
  | .sequence (v :: vs) => nodeTold_sequence (itemsTold (v :: vs))
  | .map [] => fun _ _ _ _ _ => ⟨2, (by decide : 2 ≤ 6), tells_emptyMapping _ _ _⟩
  | .map (e :: es) => nodeTold_map (entriesTold (e :: es))
termination_by structural v => v

theorem itemsTold : ∀ vs : List Value, ItemsTold handles vs
  | [] => itemsTold_nil
  | v :: vs => itemsTold_cons (nodeTold v) (itemsTold vs)
termination_by structural vs => vs

theorem entriesTold : ∀ entries : List (String × Value), EntriesTold handles entries
  | [] => entriesTold_nil
  | (key, v) :: entries => entriesTold_cons key (nodeTold v) (entriesTold entries)
termination_by structural entries => entries

end

/-! ## Documents -/

/-- The content of a document is read up to the next mark or the end of the stream. -/
theorem content?_nodeTokens (v : Value) {t : Token} (ht : t ≠ .documentEnd) (ts : List Token) :
    content? handles true (nodeTokens false v ++ t :: ts) = some (nodeEvents v, t :: ts) := by
  obtain ⟨u, more, hmore, hu⟩ := exists_startsNode v
  have hthere : orMissing endsContent (.node true false) [] (nodeTokens false v ++ t :: ts) =
      some ([], [.node true false], nodeTokens false v ++ t :: ts) := by
    rw [hmore]
    refine orMissing_of_not_end ?_ _ _ _
    cases u <;> first | rfl | nomatch hu
  obtain ⟨k, hk, hrun⟩ : ∃ k, k ≤ 3 * (nodeTokens false v).length ∧
      Tells handles k [.node true false] (nodeTokens false v ++ t :: ts) (nodeEvents v) []
        (t :: ts) := nodeTold v fun h => nomatch h
  have hevents := hrun.run (by
    rw [List.length_append]
    omega : k ≤ 4 * (nodeTokens false v ++ t :: ts).length + 8)
  rw [content?]
  simp only [if_true, hthere, Option.bind_eq_bind, Option.bind_some, hevents]
  cases t <;> first | rfl | exact absurd rfl ht

/-- A document is told up to the start of the next one or the end of the stream. -/
theorem document?_nodeTokens (isFirst : Bool) (v : Value) {t : Token} (ht : t ≠ .documentEnd)
    (ts : List Token) : document? isFirst (.documentStart :: (nodeTokens false v ++ t :: ts)) =
      some (nodeEvents v, t :: ts) := by
  have hcontent : content? .standard true (nodeTokens false v ++ t :: ts) =
      some (nodeEvents v, t :: ts) := content?_nodeTokens v ht ts
  rw [document?, if_neg (by simp [endsContent])]
  exact hcontent

theorem streamTokens_cons (v : Value) (vs : List Value) : streamTokens (v :: vs) =
    .documentStart :: (nodeTokens false v ++ streamTokens vs) := by
  simp [streamTokens]

theorem exists_streamTokens (vs : List Value) :
    ∃ t ts, streamTokens vs = t :: ts ∧ t ≠ .documentEnd := by
  cases vs with
  | nil => exact ⟨.streamEnd, [], rfl, by simp⟩
  | cons v vs => exact ⟨.documentStart, _, rfl, by simp⟩

/-- The documents of a stream are told one by one. -/
theorem documentEventsFrom_streamTokens {fuel : Nat} (isFirst : Bool) {vs : List Value}
    (hf : vs.length < fuel) :
    documentEventsFrom fuel isFirst (streamTokens vs) = vs.map fun v => some (nodeEvents v) := by
  induction vs generalizing fuel isFirst with
  | nil =>
    obtain ⟨fuel, rfl⟩ := Nat.exists_eq_succ_of_ne_zero (Nat.ne_of_gt hf)
    cases isFirst <;> rfl
  | cons v vs ih =>
    obtain ⟨fuel, rfl⟩ := Nat.exists_eq_succ_of_ne_zero (Nat.ne_of_gt (Nat.zero_lt_of_lt hf))
    obtain ⟨t, ts, hts, ht⟩ := exists_streamTokens vs
    have hdrop : (if isFirst then streamTokens (v :: vs)
        else (streamTokens (v :: vs)).dropWhile (· = .documentEnd)) = streamTokens (v :: vs) := by
      rw [streamTokens_cons]
      cases isFirst <;> rfl
    have hdocument := document?_nodeTokens isFirst v ht ts
    rw [← hts, ← streamTokens_cons] at hdocument
    rw [documentEventsFrom, hdrop]
    split
    · next heq =>
      rw [streamTokens_cons] at heq
      nomatch heq
    · rw [hdocument]
      exact congrArg _ (ih false (Nat.lt_of_succ_lt_succ hf))

/-- The events of a stream are those of its documents. -/
theorem documentEvents_streamTokens (vs : List Value) :
    documentEvents (streamTokens vs) = vs.map fun v => some (nodeEvents v) := by
  refine documentEventsFrom_streamTokens true (Nat.lt_succ_of_le ?_)
  induction vs with
  | nil => exact Nat.zero_le _
  | cons v vs ih =>
    rw [streamTokens_cons, List.length_cons, List.length_cons, List.length_append]
    omega

end ManifestBundle.Yaml
