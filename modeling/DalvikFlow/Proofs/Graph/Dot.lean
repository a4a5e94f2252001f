import DalvikFlow.Graph.Dot
import DalvikFlow.Proofs.Graph.Nodes
import DalvikFlow.Proofs.Instruction.Text
import DalvikFlow.Proofs.Text.Label

/-! A graph can be read back from its document, whatever stands in the title. -/
namespace DalvikFlow

namespace Dot

/-- What a document says of nodes and edges, each with its label and what is written behind it. -/
inductive Statement where
  | node (id : Nat) (label rest : String)
  | edge (source target : Nat) (label rest : String)
  deriving DecidableEq, Repr

namespace Statement

def isNode : Statement → Bool
  | node .. => true
  | edge .. => false

/-- An edge that leaves the node. -/
def leaves (id : Nat) : Statement → Bool
  | node .. => false
  | edge source .. => source == id

end Statement

def readName : List Char → Option (Nat × List Char)
  | 'n' :: t =>
    match t.takeWhile Char.isDigit with
    | [] => none
    | digits => some (Nat.ofDigitChars 10 digits 0, t.dropWhile Char.isDigit)
  | _ => none

/-- The label ends with the first bare quote. -/
def readLabel (opening t : List Char) : Option (String × String) := do
  let quoted ← opening.isPrefixOf? t
  let (label, rest) ← Text.Label.upToQuote quoted
  return (String.ofList (Text.Label.decode label), String.ofList rest)

/-- A line that starts with a name is a node, or an edge if an arrow and another name follow. -/
def readStatement (line : List Char) : Option Statement := do
  let (source, t) ← readName (← "    ".toList.isPrefixOf? line)
  match " -> ".toList.isPrefixOf? t with
  | none =>
    let (label, rest) ← readLabel " [label=\"".toList t
    return .node source label rest
  | some t =>
    let (target, t) ← readName t
    let (label, rest) ← readLabel " [label=\"".toList t
    return .edge source target label rest

/-- The title is the label of the graph itself. -/
def readTitle (line : List Char) : Option String := do
  let (label, rest) ← readLabel "    label=\"".toList line
  if rest = ";" then return label else none

def lines (document : String) : List (List Char) := document.toList.splitOn '\n'

def statements (document : String) : List Statement := (lines document).filterMap readStatement

def title? (document : String) : Option String := ((lines document).filterMap readTitle).head?

/-- A carriage return leaves no trace in a document. -/
def withoutReturns (s : String) : String := String.ofList (s.toList.filter (· ≠ '\r'))

end Dot

/-- The statement that stands for a node. -/
def Node.statement (root : Nat) (n : Node) : Dot.Statement :=
  .node n.id (Text.hexPadded 4 n.address ++ ": " ++ n.instruction.text) (n.dotStyle root ++ "];")

/-- The statement that stands for an edge. -/
def Edge.statement (source : Nat) (e : Edge) : Dot.Statement :=
  .edge source e.target e.via.label (", color=" ++ e.via.colour ++ "];")

namespace Transfer

def ofLabel : List Char → Transfer
  | [] => fallthrough
  | 'b' :: _ => branch
  | t => switchCase (Int32.ofInt (Text.integerValue (t.drop "case ".length)))

theorem ofLabel_label (via : Transfer) : ofLabel via.label.toList = via := by
  cases via with
  | branch => rfl
  | fallthrough => rfl
  | switchCase key =>
      have hdrop : ofLabel (switchCase key).label.toList =
          switchCase (Int32.ofInt (Text.integerValue (Text.integer key.toInt).toList)) := by
        rw [label, String.toList_append]
        rfl
      rw [hdrop, Text.integerValue_integer, Int32.ofInt_toInt]

theorem label_injective : Function.Injective label := by
  intro v w h
  rw [← ofLabel_label v, h, ofLabel_label]

end Transfer

namespace Dot

open Text (hexPadded)
open Text.Label (encode encodeChar)

theorem toList_nodeText (id : Nat) : (nodeText id).toList = 'n' :: Nat.toDigits 10 id := by
  simp [nodeText]

theorem readName_nodeText (id : Nat) {t : List Char} (ht : t.head? = some ' ') :
    readName ((nodeText id).toList ++ t) = some (id, t) := by
  obtain ⟨t, rfl⟩ := List.head?_eq_some_iff.mp ht
  have hdigits : ∀ c ∈ Nat.toDigits 10 id, c.isDigit = true :=
    Text.forall_mem_toDigits (by decide) (by decide) id
  rw [toList_nodeText, List.cons_append, readName, List.takeWhile_append_of_pos hdigits,
    List.dropWhile_append_of_pos hdigits, List.takeWhile_cons_of_neg (by decide),
    List.dropWhile_cons_of_neg (by decide), List.append_nil]
  split
  case h_1 hnil => exact absurd hnil Nat.toDigits_ne_nil
  case h_2 => rw [Nat.ofDigitChars_ten_toDigits]

theorem isPrefixOf?_append (opening t : List Char) :
    opening.isPrefixOf? (opening ++ t) = some t :=
  List.isPrefixOf?_eq_some_iff_append_eq.mpr rfl

theorem readLabel_append (opening : List Char) (label rest : String) :
    readLabel opening (opening ++ (encode label.toList ++ '"' :: rest.toList)) =
      some (withoutReturns label, rest) := by
  rw [readLabel, isPrefixOf?_append]
  simp only [Option.bind_eq_bind, Option.bind_some, Text.Label.upToQuote_encode]
  rw [Text.Label.decode_encode, String.ofList_toList]
  rfl

theorem withoutReturns_eq_self {s : String} (h : '\r' ∉ s.toList) : withoutReturns s = s := by
  have hfilter : s.toList.filter (· ≠ '\r') = s.toList :=
    List.filter_eq_self.mpr fun c hc => decide_eq_true fun heq => h (heq ▸ hc)
  rw [withoutReturns, hfilter, String.ofList_toList]

section Statements

variable {s : List Char}

/-- A text of characters that need no escape is its own escaped form. -/
theorem encode_of_bare (h : ∀ c ∈ s, encodeChar c = [c]) : encode s = s := by
  induction s with
  | nil => rfl
  | cons c s ih =>
      obtain ⟨hc, hs⟩ := List.forall_mem_cons.mp h
      rw [Text.Label.encode_cons, hc, ih hs]
      rfl

theorem encode_hexPadded (width n : Nat) :
    encode (hexPadded width n).toList = (hexPadded width n).toList :=
  encode_of_bare (Text.forall_mem_hexPadded (by decide) width n)

theorem encode_label (via : Transfer) : encode via.label.toList = via.label.toList := by
  cases via with
  | branch => decide
  | fallthrough => decide
  | switchCase key =>
      have hword : encode "case ".toList = "case ".toList := by decide
      have hkey : encode (Text.integer key.toInt).toList = (Text.integer key.toInt).toList :=
        encode_of_bare (Text.forall_mem_integer (by decide) (by decide) key.toInt)
      rw [Transfer.label, String.toList_append, Text.Label.encode_append, hword, hkey]

theorem toList_node (root : Nat) (n : Node) :
    (n.dotStatement root).toList =
      "    ".toList ++ ((nodeText n.id).toList ++ (" [label=\"".toList ++
        (encode (hexPadded 4 n.address ++ ": " ++ n.instruction.text).toList ++
          '"' :: (n.dotStyle root ++ "];").toList))) := by
  have hcolon : encode ": ".toList = ": ".toList := by decide
  simp only [Node.dotStatement, labelText, String.toList_append, Text.Label.encode_append,
    encode_hexPadded, hcolon, Text.Label.toList_escape, List.append_assoc]
  rfl

theorem toList_edge (source : Nat) (e : Edge) :
    (e.dotStatement source).toList =
      "    ".toList ++ ((nodeText source).toList ++ (" -> ".toList ++
        ((nodeText e.target).toList ++ (" [label=\"".toList ++
          (encode e.via.label.toList ++ '"' :: (", color=" ++ e.via.colour ++ "];").toList))))) := by
  simp only [Edge.dotStatement, labelText, String.toList_append, encode_label, List.append_assoc]
  rfl

theorem return_notMem_label (n : Node) :
    '\r' ∉ (hexPadded 4 n.address ++ ": " ++ n.instruction.text).toList := by
  have haddress : '\r' ∉ (hexPadded 4 n.address).toList :=
    List.forall_mem_ne'.mp (Text.forall_mem_hexPadded (by decide) 4 n.address)
  have htext : '\r' ∉ n.instruction.text.toList := fun h =>
    absurd (n.instruction.isListingChar_of_mem_text _ h) (by decide)
  rw [String.toList_append, String.toList_append, List.mem_append, List.mem_append]
  exact not_or.mpr ⟨not_or.mpr ⟨haddress, by decide⟩, htext⟩

theorem readStatement_node (root : Nat) (n : Node) :
    readStatement (n.dotStatement root).toList = some (n.statement root) := by
  have hlabel := readLabel_append " [label=\"".toList
    (hexPadded 4 n.address ++ ": " ++ n.instruction.text) (n.dotStyle root ++ "];")
  rw [readStatement, toList_node, isPrefixOf?_append]
  simp only [Option.bind_eq_bind, Option.bind_some]
  rw [readName_nodeText n.id rfl]
  simp only [Option.bind_some]
  rw [hlabel, withoutReturns_eq_self (return_notMem_label n)]
  rfl

theorem return_notMem_via (via : Transfer) : '\r' ∉ via.label.toList := by
  cases via with
  | branch => decide
  | fallthrough => decide
  | switchCase key =>
      have hkey : '\r' ∉ (Text.integer key.toInt).toList :=
        List.forall_mem_ne'.mp (Text.forall_mem_integer (by decide) (by decide) key.toInt)
      rw [Transfer.label, String.toList_append, List.mem_append]
      exact not_or.mpr ⟨by decide, hkey⟩

theorem readStatement_edge (source : Nat) (e : Edge) :
    readStatement (e.dotStatement source).toList = some (e.statement source) := by
  have hlabel := readLabel_append " [label=\"".toList e.via.label
    (", color=" ++ e.via.colour ++ "];")
  rw [readStatement, toList_edge, isPrefixOf?_append]
  simp only [Option.bind_eq_bind, Option.bind_some]
  rw [readName_nodeText source rfl]
  simp only [Option.bind_some, isPrefixOf?_append]
  rw [readName_nodeText e.target rfl]
  simp only [Option.bind_some]
  rw [hlabel, withoutReturns_eq_self (return_notMem_via e.via)]
  rfl

end Statements

section Lines

theorem lineBreak_notMem_nodeText (id : Nat) : '\n' ∉ (nodeText id).toList := by
  have hdigits : '\n' ∉ Nat.toDigits 10 id :=
    List.forall_mem_ne'.mp (Text.forall_mem_toDigits (by decide) (by decide) id)
  rw [toList_nodeText, List.mem_cons]
  exact not_or.mpr ⟨by decide, hdigits⟩

theorem lineBreak_notMem_node (root : Nat) (n : Node) : '\n' ∉ (n.dotStatement root).toList := by
  have hstyle : '\n' ∉ (n.dotStyle root ++ "];").toList := by
    unfold Node.dotStyle
    split
    · decide
    · split <;> decide
  rw [toList_node]
  simp only [List.mem_append, List.mem_cons, not_or]
  exact ⟨by decide, lineBreak_notMem_nodeText n.id, by decide,
    (Text.Label.lineBreak_notMem_encode _).1, by decide, hstyle⟩

theorem lineBreak_notMem_edge (source : Nat) (e : Edge) :
    '\n' ∉ (e.dotStatement source).toList := by
  have hcolour : '\n' ∉ (", color=" ++ e.via.colour ++ "];").toList := by
    cases e.via with
    | branch => decide
    | fallthrough => decide
    | switchCase key => exact (by decide : '\n' ∉ (", color=" ++ "blue" ++ "];").toList)
  rw [toList_edge]
  simp only [List.mem_append, List.mem_cons, not_or]
  exact ⟨by decide, lineBreak_notMem_nodeText source, by decide,
    lineBreak_notMem_nodeText e.target, by decide, (Text.Label.lineBreak_notMem_encode _).1,
    by decide, hcolour⟩

/-- The line that labels the graph itself. -/
def titleLine (title : String) : String :=
  "    label=" ++ labelText (Text.Label.escape title) ++ ";"

theorem toList_titleLine (title : String) :
    (titleLine title).toList =
      "    label=\"".toList ++ (encode title.toList ++ '"' :: ";".toList) := by
  simp only [titleLine, labelText, String.toList_append, Text.Label.toList_escape,
    List.append_assoc]
  rfl

theorem lineBreak_notMem_dotTitle (title? : Option String) :
    ∀ line ∈ FlowGraph.dotTitle title?, '\n' ∉ line.toList := by
  cases title? with
  | none => exact List.forall_mem_nil _
  | some title =>
      have htitle : '\n' ∉ (titleLine title).toList := by
        rw [toList_titleLine]
        simp only [List.mem_append, List.mem_cons, not_or]
        exact ⟨by decide, (Text.Label.lineBreak_notMem_encode _).1, by decide, by decide⟩
      exact List.forall_mem_cons.mpr ⟨htitle, List.forall_mem_cons.mpr
        ⟨by decide, List.forall_mem_nil _⟩⟩

variable (g : FlowGraph) (title? : Option String)

theorem lineBreak_notMem_dotLines : ∀ line ∈ g.dotLines title?, '\n' ∉ line.toList := by
  simp only [FlowGraph.dotLines, List.forall_mem_append]
  refine ⟨⟨⟨⟨⟨⟨?_, lineBreak_notMem_dotTitle title?⟩, ?_⟩, ?_⟩, ?_⟩, ?_⟩, ?_⟩
  case refine_3 =>
    intro line hline
    obtain ⟨n, -, rfl⟩ := List.mem_map.mp hline
    exact lineBreak_notMem_node g.root n
  case refine_5 =>
    intro line hline
    obtain ⟨n, -, hline⟩ := List.mem_flatMap.mp hline
    obtain ⟨e, -, rfl⟩ := List.mem_map.mp hline
    exact lineBreak_notMem_edge n.id e
  all_goals simp

/-- Lines without line breaks are found again. -/
theorem splitOn_flatMap {ls : List String} (h : ∀ line ∈ ls, '\n' ∉ line.toList) :
    (ls.flatMap fun line => line.toList ++ ['\n']).splitOn '\n' = ls.map String.toList ++ [[]] := by
  induction ls with
  | nil => rfl
  | cons line ls ih =>
      obtain ⟨hline, hls⟩ := List.forall_mem_cons.mp h
      rw [List.flatMap_cons, List.append_assoc, List.singleton_append,
        List.splitOn_append_cons_self_of_not_mem hline, ih hls]
      rfl

theorem lines_dot : lines (g.dot title?) = (g.dotLines title?).map String.toList ++ [[]] := by
  rw [← splitOn_flatMap (lineBreak_notMem_dotLines g title?), lines, FlowGraph.dot,
    String.toList_join, List.flatMap_map]
  simp only [String.toList_append]
  rfl

theorem readTitle_titleLine (title : String) :
    readTitle (titleLine title).toList = some (withoutReturns title) := by
  rw [readTitle, toList_titleLine, readLabel_append]
  rfl

theorem readStatement_titleLine (title : String) :
    readStatement (titleLine title).toList = none := by
  rw [toList_titleLine]
  rfl

/-- The lines that every document has. -/
def frame : List String :=
  ["digraph CFG \x7b", "    node [shape=box, fontname=\"Courier\", fontsize=10];",
    "    edge [fontname=\"Courier\", fontsize=9];", "", "\x7d"]

/-- A reader to which the frame means nothing reads the title, then the nodes, then the edges. -/
theorem filterMap_lines_dot {α : Type} {read : List Char → Option α}
    (hframe : frame.filterMap (read ∘ String.toList) = []) :
    (lines (g.dot title?)).filterMap read =
      (FlowGraph.dotTitle title?).filterMap (read ∘ String.toList) ++
        g.nodes.toList.filterMap (fun n => read (n.dotStatement g.root).toList) ++
        g.nodes.toList.flatMap fun n =>
          n.edges.filterMap fun e => read (e.dotStatement n.id).toList := by
  have hpart : ∀ part ⊆ frame, part.filterMap (read ∘ String.toList) = [] := fun part hsub =>
    List.filterMap_eq_nil_iff.mpr fun line hline =>
      List.filterMap_eq_nil_iff.mp hframe line (hsub hline)
  have hend : [[]].filterMap read = [] := hpart [""] (by simp [frame])
  rw [lines_dot, List.filterMap_append, hend, List.append_nil, List.filterMap_map,
    FlowGraph.dotLines]
  simp only [List.filterMap_append, List.filterMap_map, List.filterMap_flatMap]
  rw [hpart ["digraph CFG \x7b"] (by simp [frame]), hpart [_, _, ""] (by simp [frame]),
    hpart [""] (by simp [frame]), hpart ["\x7d"] (by simp [frame])]
  simp only [List.nil_append, List.append_nil]
  rfl

/-- A document has a statement for each node and then one for each edge, and no others. -/
theorem statements_dot :
    statements (g.dot title?) =
      g.nodes.toList.map (Node.statement g.root) ++
        g.nodes.toList.flatMap fun n => n.edges.map (Edge.statement n.id) := by
  have htitle : (FlowGraph.dotTitle title?).filterMap (readStatement ∘ String.toList) = [] := by
    cases title? with
    | none => rfl
    | some title => exact List.filterMap_cons_none (readStatement_titleLine title)
  rw [statements, filterMap_lines_dot g title? rfl, htitle, List.nil_append]
  simp only [readStatement_node, readStatement_edge, List.filterMap_eq_map']

theorem title?_dot : Dot.title? (g.dot title?) = title?.map withoutReturns := by
  have htitle : (FlowGraph.dotTitle title?).filterMap (readTitle ∘ String.toList) =
      (title?.map withoutReturns).toList := by
    cases title? with
    | none => rfl
    | some title => exact List.filterMap_cons_some (readTitle_titleLine title)
  have hnodes : g.nodes.toList.filterMap
      (fun n => readTitle (n.dotStatement g.root).toList) = [] := by
    refine List.filterMap_eq_nil_iff.mpr fun n _ => ?_
    rw [toList_node, toList_nodeText]
    rfl
  have hedges : (g.nodes.toList.flatMap fun n =>
      n.edges.filterMap fun e => readTitle (e.dotStatement n.id).toList) = [] := by
    refine List.flatMap_eq_nil_iff.mpr fun n _ => List.filterMap_eq_nil_iff.mpr fun e _ => ?_
    rw [toList_edge, toList_nodeText]
    rfl
  rw [Dot.title?, filterMap_lines_dot g title? rfl, htitle, hnodes, hedges, List.append_nil,
    List.append_nil, Option.head?_toList]

theorem filter_isNode_dot :
    (statements (g.dot title?)).filter Statement.isNode =
      g.nodes.toList.map (Node.statement g.root) := by
  rw [statements_dot, List.filter_append, List.filter_eq_self.mpr, List.filter_eq_nil_iff.mpr,
    List.append_nil]
  · intro s hs
    obtain ⟨n, -, hs⟩ := List.mem_flatMap.mp hs
    obtain ⟨e, -, rfl⟩ := List.mem_map.mp hs
    exact Bool.false_ne_true
  · intro s hs
    obtain ⟨n, -, rfl⟩ := List.mem_map.mp hs
    rfl

/-- The edges of a node are found by the name that they leave. -/
theorem filter_leaves_dot {distinct : Bool} {code : List Instruction} {g : FlowGraph}
    (h : g.Shows distinct code) (title? : Option String) {l : Nat} {n : Node}
    (hn : g.node? l = some n) :
    (statements (g.dot title?)).filter (Statement.leaves l) = n.edges.map (Edge.statement l) := by
  have hnodes : (g.nodes.toList.map (Node.statement g.root)).filter (Statement.leaves l) = [] := by
    refine List.filter_eq_nil_iff.mpr fun s hs => ?_
    obtain ⟨m, -, rfl⟩ := List.mem_map.mp hs
    exact Bool.false_ne_true
  have hrow : (g.nodes.toList.map fun m => m.edges.map (Edge.statement m.id))[l]? =
      some (n.edges.map (Edge.statement l)) := by
    have hl : g.nodes.toList[l]? = some n := Array.getElem?_toList.trans hn
    rw [List.getElem?_map, hl, Option.map_some, h.node_id hn]
  rw [statements_dot, List.filter_append, hnodes, List.nil_append, List.flatMap_def,
    filter_flatten_of_getElem? hrow, List.filter_eq_self.mpr]
  · intro s hs
    obtain ⟨e, -, rfl⟩ := List.mem_map.mp hs
    exact beq_self_eq_true l
  · intro q row hq hne s hs
    rw [List.getElem?_map, Option.map_eq_some_iff] at hq
    obtain ⟨m, hm, rfl⟩ := hq
    obtain ⟨e, -, rfl⟩ := List.mem_map.mp hs
    rw [h.node_id (Array.getElem?_toList.symm.trans hm)]
    exact beq_false_of_ne hne

end Lines

theorem node_statement_inj {root : Nat} {n m : Node}
    (h : n.statement root = m.statement root) :
    n.address = m.address ∧ n.instruction.text = m.instruction.text := by
  rw [Node.statement, Node.statement, Statement.node.injEq] at h
  have hlabel := congrArg String.toList h.2.1
  simp only [String.toList_append, List.append_assoc] at hlabel
  have haddress : ':' ∉ (hexPadded 4 n.address).toList :=
    List.forall_mem_ne'.mp (Text.forall_mem_hexPadded (by decide) 4 n.address)
  have htext : ':' ∉ ' ' :: n.instruction.text.toList := by
    intro hmem
    rcases List.mem_cons.mp hmem with hspace | hmem
    · exact absurd hspace (by decide)
    · exact absurd (n.instruction.isListingChar_of_mem_text _ hmem) (by decide)
  obtain ⟨haddresses, -, htexts⟩ := (List.append_cons_inj_of_notMem haddress htext).mp hlabel
  exact ⟨Text.hexPadded_inj.mp (String.toList_inj.mp haddresses),
    String.toList_inj.mp (List.cons.inj htexts).2⟩

theorem edge_statement_injective (source : Nat) : Function.Injective (Edge.statement source) := by
  intro e f h
  rw [Edge.statement, Edge.statement, Statement.edge.injEq] at h
  obtain ⟨-, htarget, hlabel, -⟩ := h
  cases e
  cases f
  cases htarget
  cases Transfer.label_injective hlabel
  rfl

end Dot

namespace FlowGraph

open Dot (withoutReturns)

/-- A document tells its title up to carriage returns, and all nodes and edges. Each line that is
written is one line, each label ends where it is closed, and there is one statement for each node and
one for each edge. So graphs that differ in an address, an instruction or an edge have different
documents. -/
theorem dot_determines_graph {options : GraphOptions} {code : List Instruction} {g : FlowGraph}
    (h : (ofCode options code).result = .ok g) (title? : Option String) :
    Dot.lines (g.dot title?) = (g.dotLines title?).map String.toList ++ [[]] ∧
    Dot.title? (g.dot title?) = title?.map withoutReturns ∧
    Dot.statements (g.dot title?) =
      g.nodes.toList.map (Node.statement g.root) ++
        g.nodes.toList.flatMap (fun n => n.edges.map (Edge.statement n.id)) ∧
    ∀ (options' : GraphOptions) (code' : List Instruction) (g' : FlowGraph)
      (title'? : Option String), (ofCode options' code').result = .ok g' →
      g.dot title? = g'.dot title'? →
      title?.map withoutReturns = title'?.map withoutReturns ∧ g.size = g'.size ∧
        ∀ l n n', g.node? l = some n → g'.node? l = some n' →
          n.address = n'.address ∧ n.instruction.text = n'.instruction.text ∧
            n.edges = n'.edges := by
  refine ⟨Dot.lines_dot g title?, Dot.title?_dot g title?, Dot.statements_dot g title?, ?_⟩
  intro options' code' g' title'? h' heq
  have hnodes : g.nodes.toList.map (Node.statement g.root) =
      g'.nodes.toList.map (Node.statement g'.root) := by
    rw [← Dot.filter_isNode_dot g title?, heq, Dot.filter_isNode_dot]
  refine ⟨?_, ?_, ?_⟩
  · rw [← Dot.title?_dot g title?, heq, Dot.title?_dot]
  · have hlength := congrArg List.length hnodes
    rw [List.length_map, List.length_map] at hlength
    exact hlength
  · intro l n n' hn hn'
    have hnode : n.statement g.root = n'.statement g'.root := by
      have hl := congrArg (·[l]?) hnodes
      simp only [List.getElem?_map, Array.getElem?_toList] at hl
      rw [← node?, ← node?, hn, hn'] at hl
      exact Option.some.inj hl
    have hedges : n.edges.map (Edge.statement l) = n'.edges.map (Edge.statement l) := by
      rw [← Dot.filter_leaves_dot (shows_of_result h) title? hn, heq,
        Dot.filter_leaves_dot (shows_of_result h') title'? hn']
    obtain ⟨haddress, htext⟩ := Dot.node_statement_inj hnode
    exact ⟨haddress, htext, (Dot.edge_statement_injective l).list_map hedges⟩

/-- A title that would like to be a node. -/
theorem dot_of_sampleBody :
    ∃ g, (ofCode ⟨true⟩ sampleBody).result = .ok g ∧
      g.dot (some "\"];\r\n    n9 [label=\"") = g.dot (some "\"];\n    n9 [label=\"") ∧
      withoutReturns "\"];\r\n    n9 [label=\"" = withoutReturns "\"];\n    n9 [label=\"" ∧
      (Dot.statements (g.dot (some "\"];\r\n    n9 [label=\""))).length = 8 := by
  obtain ⟨g, hg⟩ : ∃ g, (ofCode ⟨true⟩ sampleBody).result = .ok g := ⟨_, rfl⟩
  have hescape : Text.Label.escape "\"];\r\n    n9 [label=\"" =
      Text.Label.escape "\"];\n    n9 [label=\"" := by decide +kernel
  have hdot : g.dot (some "\"];\r\n    n9 [label=\"") =
      g.dot (some "\"];\n    n9 [label=\"") := by
    simp only [dot, dotLines, dotTitle, hescape]
  obtain ⟨-, -, hstatements, hequal⟩ := dot_determines_graph hg (some "\"];\r\n    n9 [label=\"")
  refine ⟨g, hg, hdot, ?_, ?_⟩
  · exact Option.some.inj (hequal _ _ g _ hg hdot).1
  · rw [hstatements]
    cases hg
    rfl

end FlowGraph

end DalvikFlow
