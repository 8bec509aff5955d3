import ManifestBundle.Document.Stream
import ManifestBundle.Proofs.Equality
import ManifestBundle.Proofs.Except
import ManifestBundle.Proofs.Yaml.Data
import ManifestBundle.Rendering

/-!
# Documents that are written and read again

Documents that have been read can be written as a stream that is read as the same
documents, in the same order (`parseStream_renderAll`). The reason is that the data tree
of a document is the whole manifest, and that a manifest that has been read is a readable
map (`IsWritable`); this is all that the way there and back needs.
-/

namespace ManifestBundle

/-! ## Values -/

theorem Yaml.exists_of_mem_nodes {text : String} {n : Yaml.Node} (h : some n ∈ Yaml.nodes text) :
    ∃ es, Yaml.Node.ofEvents? es = some n := by
  obtain ⟨es, -, hn⟩ := List.mem_map.1 h
  obtain ⟨es, -, hn⟩ := Option.bind_eq_some_iff.1 hn
  exact ⟨es, hn⟩

namespace Value

/-- The data trees of a stream are those of its nodes. -/
theorem exists_of_ofNodes {position : Nat} {ns : List (Option Yaml.Node)} {vs : List Value}
    (h : ofNodes position ns = .ok vs) : ∀ v ∈ vs, ∃ n, some n ∈ ns ∧ ofNode? n = some v := by
  induction ns generalizing position vs with
  | nil =>
    obtain rfl : [] = vs := Except.ok.inj h
    exact fun v hv => absurd hv List.not_mem_nil
  | cons m ns ih =>
    cases m with
    | none => nomatch h
    | some n =>
      rw [ofNodes] at h
      split at h
      · -- A null document is passed over.
        intro v hv
        obtain ⟨n', hn', hv'⟩ := ih h v hv
        exact ⟨n', List.mem_cons_of_mem _ hn', hv'⟩
      · split at h
        · nomatch h
        · next w hw =>
          obtain ⟨ws, hws, rfl⟩ := Except.map_eq_ok_iff.1 h
          intro v hv
          rcases List.mem_cons.1 hv with rfl | hv
          · exact ⟨n, List.mem_cons_self, hw⟩
          · obtain ⟨n', hn', hv'⟩ := ih hws v hv
            exact ⟨n', List.mem_cons_of_mem _ hn', hv'⟩

/-- Every data tree that has been read can be read again. -/
theorem isReadable_of_parseStream {text : String} {vs : List Value}
    (h : parseStream text = .ok vs) : ∀ v ∈ vs, v.IsReadable Yaml.Tree.maxDepth := by
  intro v hv
  obtain ⟨n, hn, hnode⟩ := exists_of_ofNodes h v hv
  obtain ⟨es, hes⟩ := Yaml.exists_of_mem_nodes hn
  exact Yaml.isReadable_of_ofEvents? hes v hnode

/-- Maps are read from their nodes, one by one. -/
theorem ofNodes_node (position : Nat) {vs : List Value}
    (h : ∀ v ∈ vs, v.isMap ∧ v.IsReadable Yaml.Tree.maxDepth) :
    ofNodes position (vs.map fun v => some v.node) = .ok vs := by
  induction vs generalizing position with
  | nil => rfl
  | cons v vs ih =>
    obtain ⟨hmap, hread⟩ := h v List.mem_cons_self
    obtain ⟨es, rfl⟩ := Yaml.exists_of_isMap hmap
    have hmore := ih (position + 1) fun w hw => h w (List.mem_cons_of_mem _ hw)
    rw [List.map_cons, ofNodes, ofNode?_node hread, hmore]
    rfl

/-- A stream of readable maps is read as these maps. -/
theorem parseStream_streamText {vs : List Value}
    (h : ∀ v ∈ vs, v.isMap ∧ v.IsReadable Yaml.Tree.maxDepth) :
    parseStream (String.ofList (Yaml.streamText vs)) = .ok vs := by
  have hnodes : Yaml.nodes (String.ofList (Yaml.streamText vs)) = vs.map fun v => some v.node := by
    rw [Yaml.nodes, String.toList_ofList, Yaml.tokens_streamText fun v hv => (h v hv).1,
      Yaml.documentEvents_streamTokens, List.map_map]
    refine List.map_congr_left fun v hv => ?_
    exact Yaml.ofEvents?_nodeEvents (h v hv).2
  rw [parseStream, hnodes, ofNodes_node 1 h]

end Value

namespace Document

/-! ## Manifests -/

/-- The document can be written and read again: its data tree is a manifest that
    describes it, and is readable. -/
structure IsWritable (d : Document) : Prop where
  describes : ofValue d.data = .ok d
  readable : d.data.IsReadable Yaml.Tree.maxDepth

/-- A manifest is a map, and the whole of it is the data tree. -/
theorem of_ofValue {v : Value} {d : Document} (h : ofValue v = .ok d) :
    v.isMap ∧ d.data = v := by
  unfold ofValue at h
  cases hmap : v.isMap with
  | false =>
    rw [hmap] at h
    nomatch h
  | true =>
    simp only [hmap, Bool.not_true, Bool.false_eq_true, if_false] at h
    split at h
    · nomatch h
    obtain ⟨labels, -, h⟩ := Except.bind_eq_ok_iff.1 h
    obtain ⟨annotations, -, h⟩ := Except.bind_eq_ok_iff.1 h
    exact ⟨rfl, by rw [← Except.ok.inj h]⟩

/-- The documents of a list of manifests are those that they describe, one by one. -/
theorem exists_of_ofValues {position : Nat} {vs : List Value} {ds : List Document}
    (h : ofValues position vs = .ok ds) : ∀ d ∈ ds, ∃ v ∈ vs, ofValue v = .ok d := by
  induction vs generalizing position ds with
  | nil =>
    obtain rfl : [] = ds := Except.ok.inj h
    exact fun d hd => absurd hd List.not_mem_nil
  | cons v vs ih =>
    rw [ofValues] at h
    cases hv : ofValue v with
    | error e =>
      rw [hv] at h
      nomatch h
    | ok d =>
      rw [hv] at h
      obtain ⟨ds', hmore, rfl⟩ := Except.map_eq_ok_iff.1 h
      intro e he
      rcases List.mem_cons.1 he with rfl | he
      · exact ⟨v, List.mem_cons_self, hv⟩
      · obtain ⟨w, hw, hdescribes⟩ := ih hmore e he
        exact ⟨w, List.mem_cons_of_mem v hw, hdescribes⟩

theorem ofValues_data (position : Nat) {ds : List Document} (h : ∀ d ∈ ds, d.IsWritable) :
    ofValues position (ds.map data) = .ok ds := by
  induction ds generalizing position with
  | nil => rfl
  | cons d ds ih =>
    have hmore := ih (position + 1) fun e he => h e (List.mem_cons_of_mem d he)
    rw [List.map_cons, ofValues, (h d List.mem_cons_self).describes, hmore]
    rfl

/-- Every document that has been read can be written and read again. -/
theorem isWritable_of_parseStream {text : String} {ds : List Document}
    (h : parseStream text = .ok ds) : ∀ d ∈ ds, d.IsWritable := by
  intro d hd
  obtain ⟨vs, hvs, hvalues⟩ := Except.bind_eq_ok_iff.1 h
  obtain ⟨v, hv, hdescribes⟩ := exists_of_ofValues hvalues d hd
  obtain ⟨-, rfl⟩ := of_ofValue hdescribes
  exact ⟨hdescribes, Value.isReadable_of_parseStream hvs d.data hv⟩

/-! ## There and back -/

theorem renderAll_yaml (ds : List Document) :
    renderAll ds .yaml = String.ofList (Yaml.streamText (ds.map data)) := by
  rw [← String.toList_inj, String.toList_ofList, renderAll, String.toList_join, List.flatMap_map,
    Yaml.streamText, List.flatMap_map]
  congr 1
  funext d
  simp only [String.toList_append, Value.render, String.toList_ofList]
  rfl

theorem renderAll_append (ds es : List Document) :
    renderAll (ds ++ es) .yaml = renderAll ds .yaml ++ renderAll es .yaml := by
  rw [renderAll, renderAll, renderAll, List.map_append, String.join_append]

/-- Documents that can be written are read from what is written. -/
theorem parseStream_renderAll {ds : List Document} (h : ∀ d ∈ ds, d.IsWritable) :
    parseStream (renderAll ds .yaml) = .ok ds := by
  have hvalues : Value.parseStream (renderAll ds .yaml) = .ok (ds.map data) := by
    rw [renderAll_yaml]
    refine Value.parseStream_streamText fun v hv => ?_
    obtain ⟨d, hd, rfl⟩ := List.mem_map.1 hv
    exact ⟨(of_ofValue (h d hd).describes).1, (h d hd).readable⟩
  rw [parseStream, hvalues]
  exact ofValues_data 1 h

/-- Writing documents that have been read and reading them gives the same documents, also
    when what is written for two streams is put together. -/
theorem parseStream_renderAll_parsed {text : String} {ds : List Document}
    (h : parseStream text = .ok ds) :
    parseStream (renderAll ds .yaml) = .ok ds ∧
      ∀ {text' : String} {es : List Document}, parseStream text' = .ok es →
        parseStream (renderAll ds .yaml ++ renderAll es .yaml) = .ok (ds ++ es) := by
  have hds := isWritable_of_parseStream h
  refine ⟨parseStream_renderAll hds, fun h' => ?_⟩
  have hes := isWritable_of_parseStream h'
  rw [← renderAll_append]
  refine parseStream_renderAll fun d hd => ?_
  rcases List.mem_append.1 hd with hd | hd
  · exact hds d hd
  · exact hes d hd

/-- A document with texts that are written in quotes. -/
def quoting : Document where
  group := ""
  version := ""
  kind := ""
  name := "web"
  data := .map [("metadata", .map [("name", .text "web")]),
    ("args", .sequence [.text "a", .text "", .text "x: y"])]

/-- A document of nothing but a kind. -/
def kindOnly : Document where
  group := ""
  version := ""
  kind := "B"
  name := ""
  data := .map [("kind", .text "B")]

theorem parseStream_renderAll_quoting :
    parseStream "metadata: \x7bname: web\x7d\nargs: [a, '', 'x: y']\n" = .ok [quoting] ∧
      parseStream "kind: B\n" = .ok [kindOnly] ∧
      parseStream (renderAll [quoting] .yaml) = .ok [quoting] ∧
      parseStream (renderAll [quoting] .yaml ++ renderAll [kindOnly] .yaml) =
        .ok [quoting, kindOnly] := by
  have h : parseStream "metadata: \x7bname: web\x7d\nargs: [a, '', 'x: y']\n" =
      .ok [quoting] := by decide +kernel
  have h' : parseStream "kind: B\n" = .ok [kindOnly] := by decide +kernel
  have hboth := parseStream_renderAll_parsed h
  exact ⟨h, h', hboth.1, hboth.2 h'⟩

end Document

end ManifestBundle
