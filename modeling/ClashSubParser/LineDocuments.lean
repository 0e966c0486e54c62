import ClashSubParser.QuantumultXLines
import ClashSubParser.SurgeLines

/-! The documents of the line-based targets give back what was put into them. -/
namespace ClashSubParser

open List FirstError Strings

/-- A document with one line for each list of fields, which gives its fields back. -/
structure OneLineEach (lines : List (List LineField)) (out : String) : Prop where
  document : split out '\n' = lines.map lineOf ++ [""]
  unbroken : ∀ fields ∈ lines, '\r' ∉ (lineOf fields).toList
  recovered : ∀ fields ∈ lines, readLine (lineOf fields) = fields.map LineField.parts
  distinct : ∀ fields ∈ lines, ∀ fields' ∈ lines, fields ≠ fields' → lineOf fields ≠ lineOf fields'

def SurgeValues (node : ResolvedNode) (fields : List LineField) : Prop :=
  ∃ kind params, fields = [.head (trimSpace node.displayName) kind, .bare (trimSpace node.server),
      .bare (toString node.port)] ++ params ∧ ∀ f ∈ params, ∃ key value, f = .param key value

/-- An endpoint that gives the server and the port of the node, parameters and its name. -/
def QuantumultXValues (node : ResolvedNode) (fields : List LineField) : Prop :=
  ∃ kind endpoint params, fields = [.head kind endpoint] ++ params ++ [.param "tag" (trimSpace node.displayName)] ∧
    readEndpoint endpoint = (trimSpace node.server, toString node.port) ∧
    ∀ f ∈ params, ∃ key value, f = .param key value

theorem LineField.SafeParam.eq_param {f : LineField} (h : f.SafeParam) : ∃ key value, f = .param key value := by
  cases f with
  | head name kind | bare text => contradiction
  | param key value => exact ⟨key, value, rfl⟩

theorem surgeValues_of_render {lib : Libraries} {i : ℕ} {node : ResolvedNode} {fields : List LineField}
    (h : renderSurgeProxyLine lib i node = .ok fields) : SurgeValues node fields := by
  obtain ⟨kind, params, -, hfs, hpa⟩ := (isSurgeLine_of_render h).1
  exact ⟨kind, params, hfs, fun f hf => (hpa f hf).eq_param⟩

theorem quantumultXValues_of_render {lib : Libraries} {i : ℕ} {node : ResolvedNode} {fields : List LineField}
    (h : renderQuantumultXNode lib i node = .ok fields) : QuantumultXValues node fields := by
  obtain ⟨kind, params, -, hfs, hpa⟩ := (isQuantumultXLine_of_render h).1
  exact ⟨kind, _, params, by simpa using hfs, readEndpoint_joinHostPort (not_mem_toString (by decide)),
    fun f hf => (hpa f hf).eq_param⟩

section

variable {render : ℕ → ResolvedNode → Except CapabilityError (List LineField)}
  {Values : ResolvedNode → List LineField → Prop} {nodes : List ResolvedNode}

theorem forall₂_of_mapIdx_eq (hv : ∀ i node fs, render i node = .ok fs → Values node fs)
    {lines : List (List LineField)} (h : nodes.mapIdx render = lines.map .ok) : List.Forall₂ Values nodes lines := by
  have hl : nodes.length = lines.length := by simpa using congrArg List.length h
  rw [List.forall₂_iff_get]
  refine ⟨hl, ?_⟩
  intro i hi hi'
  have hg := getElem_of_eq h (by simpa using hi)
  rw [getElem_mapIdx, getElem_map] at hg
  exact hv i _ _ hg

theorem oneLineEach_of_wellFormed {lines : List (List LineField)} (hne : lines ≠ [])
    (hli : ∀ fs ∈ lines, WellFormedLine fs) : OneLineEach lines (lineDocument (lines.map lineOf)) where
  document := by
    apply split_lineDocument (by simpa using hne)
    intro l hl
    obtain ⟨fs, hfs, rfl⟩ := mem_map.mp hl
    exact not_mem_lineOf (by decide) fun f hf => ((hli fs hfs).safe f hf).feed
  unbroken fs hfs := not_mem_lineOf (by decide) fun f hf => ((hli fs hfs).safe f hf).ret
  recovered fs hfs := readLine_lineOf (hli fs hfs).ne_nil (hli fs hfs).safe
  distinct fs hfs fields' hfields' hne heq :=
    hne ((hli fs hfs).eq_of_lineOf_eq (hli fields' hfields') heq)

theorem document_of_render (render : ℕ → ResolvedNode → Except CapabilityError (List LineField))
    (hwf : ∀ i node fields, render i node = .ok fields → WellFormedLine fields)
    (hv : ∀ i node fields, render i node = .ok fields → Values node fields) {out : String}
    (h : (allOk (nodes.mapIdx render) >>= fun lines => .ok (lineDocument (lines.map lineOf))) = .ok out) :
    (nodes = [] → out = "\n") ∧
      (nodes ≠ [] → ∃ lines, nodes.mapIdx render = lines.map .ok ∧ OneLineEach lines out ∧
        List.Forall₂ Values nodes lines) := by
  obtain ⟨lines, hl, ho⟩ := bind_eq_ok_iff.mp h
  rw [allOk_eq_ok_iff] at hl
  rw [Except.ok.injEq] at ho
  have hle : nodes.length = lines.length := by simpa using congrArg List.length hl
  have hn : nodes = [] ↔ lines = [] := by
    rw [← length_eq_zero_iff, ← length_eq_zero_iff, hle]
  refine ⟨?_, ?_⟩
  · intro hns
    rw [← ho, hn.mp hns]
    rfl
  · intro hns
    have ha : List.Forall₂ (fun _ fields => WellFormedLine fields) nodes lines := forall₂_of_mapIdx_eq hwf hl
    have hw : ∀ fields ∈ lines, WellFormedLine fields := by
      intro fields hfs
      obtain ⟨i, hi, rfl⟩ := mem_iff_getElem.mp hfs
      exact (List.forall₂_iff_get.mp ha).2 i (by omega) hi
    rw [← ho]
    exact ⟨lines, hl, oneLineEach_of_wellFormed (fun he => hns (hn.mpr he)) hw,
      forall₂_of_mapIdx_eq hv hl⟩

end

/-- The documents of the two line-based targets. Without nodes the document is one line feed. With nodes it has
one line for each of them, in order, which gives back the values of the node; nothing a value contains adds a
field or a line, and different values give different lines. -/
theorem rendered_lines_give_back_values (lib : Libraries) (nodes : List ResolvedNode) (out : String) :
    (renderSurge lib nodes = .ok out → (nodes = [] → out = "\n") ∧
      (nodes ≠ [] → ∃ lines, nodes.mapIdx (renderSurgeProxyLine lib) = lines.map .ok ∧ OneLineEach lines out ∧
        List.Forall₂ SurgeValues nodes lines)) ∧
    (renderQuantumultX lib nodes = .ok out → (nodes = [] → out = "\n") ∧
      (nodes ≠ [] → ∃ lines, nodes.mapIdx (renderQuantumultXNode lib) = lines.map .ok ∧ OneLineEach lines out ∧
        List.Forall₂ QuantumultXValues nodes lines)) := by
  refine ⟨?_, ?_⟩
  · intro h
    exact document_of_render (renderSurgeProxyLine lib) (fun _ _ _ hl => (isSurgeLine_of_render hl).2)
      (fun _ _ _ hl => surgeValues_of_render hl) h
  · intro h
    exact document_of_render (renderQuantumultXNode lib) (fun _ _ _ hl => (isQuantumultXLine_of_render hl).2)
      (fun _ _ _ hl => quantumultXValues_of_render hl) h

def trojanProxy (displayName : String) : ResolvedNode where
  logicalID := "node_00000000000000aa"
  displayName := displayName
  protocol := .trojan
  server := "example.org"
  port := 443
  credentials := { password := "p=q" }
  active := true
  connectionRevision := 1
  position := 0

theorem trojanProxy_line_gives_back_values :
    let out := "HK 1 = trojan, example.org, 443, password=p=q\n"
    renderSurge asciiLibraries [trojanProxy " HK 1"] = .ok out ∧
      ∃ lines, OneLineEach lines out ∧ List.Forall₂ SurgeValues [trojanProxy " HK 1"] lines := by
  intro out
  have ho : renderSurge asciiLibraries [trojanProxy " HK 1"] = .ok out := by decide
  obtain ⟨lines, -, hon, hv⟩ :=
    ((rendered_lines_give_back_values asciiLibraries [trojanProxy " HK 1"] out).1 ho).2 (by simp)
  exact ⟨ho, lines, hon, hv⟩

/-- A document without nodes is not free of lines. -/
theorem empty_document_has_a_line :
    ∃ out, renderSurge asciiLibraries [] = .ok out ∧ renderQuantumultX asciiLibraries [] = .ok out ∧
      ¬OneLineEach [] out :=
  ⟨"\n", rfl, rfl, fun h => absurd h.document (by decide)⟩

end ClashSubParser
