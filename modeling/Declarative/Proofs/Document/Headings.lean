import Declarative.Document.Printer

/-!
# The lines of a document as headings

A printed line says of a value or node what it is, how deep it stands and where it was written: that is
its heading (`Document.Heading`). The headings of a document in their order determine the document but
for its numbers (`Document.unnumbered_eq_of_headings_eq`). What belongs to a value or node are the
headings behind its own that stand deeper, and since these are captions of values or of nodes, the values of
an element end where its content begins. So two lists of headings are compared with something behind
each of them that does not belong to them any more (`Document.EndsValues`, `Document.EndsNodes`).
-/

namespace Declarative

namespace Document

/-! ## Documents without their numbers -/

mutual

/-- The value with no numbers of source nodes. -/
def Value.unnumbered : Value → Value
  | .literal content origin => .literal content { origin with node := ⟨0⟩ }
  | .factory name values origin =>
    .factory name (Value.unnumberedAll values) { origin with node := ⟨0⟩ }

def Value.unnumberedAll : List Value → List Value
  | [] => []
  | value :: values => Value.unnumbered value :: Value.unnumberedAll values

end

mutual

def Node.unnumbered : Node → Node
  | .element name values content origin =>
    .element name (Value.unnumberedAll values) (Node.unnumberedAll content)
      { origin with node := ⟨0⟩ }
  | .property name value origin => .property name value.unnumbered { origin with node := ⟨0⟩ }
  | .error message origin => .error message { origin with node := ⟨0⟩ }

def Node.unnumberedAll : List Node → List Node
  | [] => []
  | node :: nodes => Node.unnumbered node :: Node.unnumberedAll nodes

end

/-! ## Headings -/

/-- What a line says of a value or node. -/
inductive Caption where
  | literal (content : Literal)
  | factory (name : String)
  | element (name : String)
  | property (name : String)
  | error (message : String)
  deriving DecidableEq, Repr

namespace Caption

/-- What stands at the start of the line. -/
def word : Caption → String
  | literal _ => "literal "
  | factory _ => "factory "
  | element _ => "element "
  | property _ => "property "
  | error _ => "error "

/-- What stands behind the word. -/
def body : Caption → String
  | literal content => literalText content
  | factory name => name
  | element name => name
  | property name => name
  | error message => Text.quoted message

def text (caption : Caption) : String := caption.word ++ caption.body

def name? : Caption → Option String
  | factory name => some name
  | element name => some name
  | property name => some name
  | literal _ => none
  | error _ => none

def isValue : Caption → Bool
  | literal _ => true
  | factory _ => true
  | _ => false

end Caption

def Value.caption : Value → Caption
  | .literal content _ => .literal content
  | .factory name _ _ => .factory name

def Node.caption : Node → Caption
  | .element name _ _ _ => .element name
  | .property name _ _ => .property name
  | .error message _ => .error message

/-- The caption of a value or node, with its depth and its place. -/
structure Heading where
  depth : Nat
  caption : Caption
  span : Span
  deriving DecidableEq, Repr

def Heading.line (heading : Heading) : Line := ⟨heading.depth, heading.caption.text, heading.span⟩

mutual

def Value.headings (depth : Nat) : Value → List Heading
  | .literal content origin => [⟨depth, .literal content, origin.span⟩]
  | .factory name values origin =>
    ⟨depth, .factory name, origin.span⟩ :: Value.headingsOfAll (depth + 1) values

def Value.headingsOfAll (depth : Nat) : List Value → List Heading
  | [] => []
  | value :: values => Value.headings depth value ++ Value.headingsOfAll depth values

end

mutual

def Node.headings (depth : Nat) : Node → List Heading
  | .element name values content origin =>
    ⟨depth, .element name, origin.span⟩ ::
      (Value.headingsOfAll (depth + 1) values ++ Node.headingsOfAll (depth + 1) content)
  | .property name value origin =>
    ⟨depth, .property name, origin.span⟩ :: Value.headings (depth + 1) value
  | .error message origin => [⟨depth, .error message, origin.span⟩]

def Node.headingsOfAll (depth : Nat) : List Node → List Heading
  | [] => []
  | node :: nodes => Node.headings depth node ++ Node.headingsOfAll depth nodes

end

/-- The headings of the document, one for each of its lines. -/
def headings (document : Document) : List Heading := Node.headingsOfAll 0 document.content

/-- The names of the elements, properties and factories in the document. -/
def names (document : Document) : List String :=
  document.headings.filterMap (·.caption.name?)

mutual

theorem Value.lines_eq : ∀ (depth : Nat) (value : Value),
    Value.lines depth value = (Value.headings depth value).map Heading.line
  | _, .literal _ _ => rfl
  | depth, .factory _ values _ => congrArg (_ :: ·) (Value.linesOfAll_eq (depth + 1) values)

theorem Value.linesOfAll_eq : ∀ (depth : Nat) (values : List Value),
    Value.linesOfAll depth values = (Value.headingsOfAll depth values).map Heading.line
  | _, [] => rfl
  | depth, value :: values => by
      rw [Value.linesOfAll, Value.headingsOfAll, List.map_append, Value.lines_eq depth value,
        Value.linesOfAll_eq depth values]

end

mutual

theorem Node.lines_eq : ∀ (depth : Nat) (node : Node),
    Node.lines depth node = (Node.headings depth node).map Heading.line
  | depth, .element _ values content _ => by
      rw [Node.lines, Node.headings, List.map_cons, List.map_append,
        Value.linesOfAll_eq (depth + 1) values, Node.linesOfAll_eq (depth + 1) content]
      rfl
  | depth, .property _ value _ => congrArg (_ :: ·) (Value.lines_eq (depth + 1) value)
  | _, .error _ _ => rfl

theorem Node.linesOfAll_eq : ∀ (depth : Nat) (nodes : List Node),
    Node.linesOfAll depth nodes = (Node.headingsOfAll depth nodes).map Heading.line
  | _, [] => rfl
  | depth, node :: nodes => by
      rw [Node.linesOfAll, Node.headingsOfAll, List.map_append, Node.lines_eq depth node,
        Node.linesOfAll_eq depth nodes]

end

/-! ## Where lists end -/

/-- What follows is no further value at the depth: something less deep, or a node. -/
def EndsValues (depth : Nat) (rest : List Heading) : Prop :=
  ∀ heading ∈ rest.head?, heading.depth < depth
    ∨ heading.depth = depth ∧ heading.caption.isValue = false

/-- What follows is less deep. -/
def EndsNodes (depth : Nat) (rest : List Heading) : Prop :=
  ∀ heading ∈ rest.head?, heading.depth < depth

variable {depth : Nat} {rest rest' : List Heading}

theorem Value.exists_headings_cons (depth : Nat) (value : Value) :
    ∃ heading inside, Value.headings depth value = heading :: inside
      ∧ heading.depth = depth ∧ heading.caption.isValue = true := by
  cases value with
  | literal content origin => exact ⟨_, _, rfl, rfl, rfl⟩
  | factory name values origin => exact ⟨_, _, rfl, rfl, rfl⟩

theorem Node.exists_headings_cons (depth : Nat) (node : Node) :
    ∃ heading inside, Node.headings depth node = heading :: inside
      ∧ heading.depth = depth ∧ heading.caption.isValue = false := by
  cases node with
  | element name values content origin => exact ⟨_, _, rfl, rfl, rfl⟩
  | property name value origin => exact ⟨_, _, rfl, rfl, rfl⟩
  | error message origin => exact ⟨_, _, rfl, rfl, rfl⟩

/-- What ends nodes at a depth ends whatever stands deeper. -/
theorem EndsNodes.endsValues (h : EndsNodes (depth + 1) rest) : EndsValues (depth + 2) rest :=
  fun heading hheading => Or.inl (Nat.lt_succ_of_lt (h heading hheading))

/-- The arguments of a value end where the next value starts, or where the values end. -/
theorem endsValues_headingsOfAll_append (h : EndsValues depth rest) (values : List Value) :
    EndsValues (depth + 1) (Value.headingsOfAll depth values ++ rest) := by
  intro heading hheading
  refine Or.inl (Nat.lt_succ_of_le ?_)
  cases values with
  | nil =>
      rcases h heading hheading with hlt | ⟨heq, -⟩
      · exact Nat.le_of_lt hlt
      · exact Nat.le_of_eq heq
  | cons value values =>
      obtain ⟨first, inside, hcons, hdepth, -⟩ := value.exists_headings_cons depth
      rw [Value.headingsOfAll, hcons] at hheading
      obtain rfl := Option.some.inj hheading
      exact Nat.le_of_eq hdepth

/-- The values of an element end where its content starts, or where the element ends. -/
theorem endsValues_nodes_append (h : EndsNodes depth rest) (nodes : List Node) :
    EndsValues depth (Node.headingsOfAll depth nodes ++ rest) := by
  intro heading hheading
  cases nodes with
  | nil => exact Or.inl (h heading hheading)
  | cons node nodes =>
      obtain ⟨first, inside, hcons, hdepth, hnode⟩ := node.exists_headings_cons depth
      rw [Node.headingsOfAll, hcons] at hheading
      obtain rfl := Option.some.inj hheading
      exact Or.inr ⟨hdepth, hnode⟩

/-- What is inside of a node ends where the next node starts, or where the nodes end. -/
theorem endsNodes_headingsOfAll_append (h : EndsNodes depth rest) (nodes : List Node) :
    EndsNodes (depth + 1) (Node.headingsOfAll depth nodes ++ rest) := by
  intro heading hheading
  cases nodes with
  | nil => exact Nat.lt_succ_of_lt (h heading hheading)
  | cons node nodes =>
      obtain ⟨first, inside, hcons, hdepth, -⟩ := node.exists_headings_cons depth
      rw [Node.headingsOfAll, hcons] at hheading
      obtain rfl := Option.some.inj hheading
      exact Nat.lt_succ_of_le (Nat.le_of_eq hdepth)

theorem EndsValues.ne_headings_append (h : EndsValues depth rest) (value : Value)
    (others : List Heading) : rest ≠ Value.headings depth value ++ others := by
  rintro rfl
  obtain ⟨first, inside, hcons, hdepth, hvalue⟩ := value.exists_headings_cons depth
  rcases h first (by rw [hcons]; rfl) with hlt | ⟨-, hnode⟩
  · exact absurd hdepth (Nat.ne_of_lt hlt)
  · rw [hvalue] at hnode
    cases hnode

theorem EndsNodes.ne_headings_append (h : EndsNodes depth rest) (node : Node)
    (others : List Heading) : rest ≠ Node.headings depth node ++ others := by
  rintro rfl
  obtain ⟨first, inside, hcons, hdepth, -⟩ := node.exists_headings_cons depth
  exact absurd hdepth (Nat.ne_of_lt (h first (by rw [hcons]; rfl)))

/-! ## Documents from their headings -/

theorem Origin.eq_of_span_eq {a b : Origin} (h : a.span = b.span) :
    ({ a with node := ⟨0⟩ } : Origin) = { b with node := ⟨0⟩ } := by
  rw [h]

/-- Captions of different kinds are different, and the first heading has the value's own. -/
theorem Value.caption_eq_of_headings {value value' : Value}
    (h : Value.headings depth value ++ rest = Value.headings depth value' ++ rest') :
    value.caption = value'.caption := by
  cases value <;> cases value' <;> exact congrArg Heading.caption (List.cons.inj h).1

theorem Node.caption_eq_of_headings {node node' : Node}
    (h : Node.headings depth node ++ rest = Node.headings depth node' ++ rest') :
    node.caption = node'.caption := by
  cases node <;> cases node' <;> exact congrArg Heading.caption (List.cons.inj h).1

mutual

theorem Value.unnumbered_eq_of_headings : ∀ {depth : Nat} {rest rest' : List Heading}
    (value value' : Value), EndsValues (depth + 1) rest → EndsValues (depth + 1) rest' →
      Value.headings depth value ++ rest = Value.headings depth value' ++ rest' →
        value.unnumbered = value'.unnumbered ∧ rest = rest'
  | depth, rest, rest', .literal content origin, .literal content' origin', _, _, h => by
      obtain ⟨hhead, htail⟩ := List.cons.inj h
      obtain ⟨-, hcaption, hspan⟩ := Heading.mk.inj hhead
      obtain rfl := Caption.literal.inj hcaption
      exact ⟨congrArg (Value.literal content) (Origin.eq_of_span_eq hspan), htail⟩
  | depth, rest, rest', .factory name values origin, .factory name' values' origin', hrest, hrest', h => by
      obtain ⟨hhead, htail⟩ := List.cons.inj h
      obtain ⟨-, hcaption, hspan⟩ := Heading.mk.inj hhead
      obtain rfl := Caption.factory.inj hcaption
      obtain ⟨hvalues, hothers⟩ := Value.unnumberedAll_eq_of_headings values values' hrest hrest' htail
      refine ⟨?_, hothers⟩
      rw [Value.unnumbered, Value.unnumbered, hvalues, Origin.eq_of_span_eq hspan]
  | _, _, _, .literal _ _, .factory _ _ _, _, _, h => by cases Value.caption_eq_of_headings h
  | _, _, _, .factory _ _ _, .literal _ _, _, _, h => by cases Value.caption_eq_of_headings h

theorem Value.unnumberedAll_eq_of_headings : ∀ {depth : Nat} {rest rest' : List Heading}
    (values values' : List Value), EndsValues depth rest → EndsValues depth rest' →
      Value.headingsOfAll depth values ++ rest = Value.headingsOfAll depth values' ++ rest' →
        Value.unnumberedAll values = Value.unnumberedAll values' ∧ rest = rest'
  | _, _, _, [], [], _, _, h => ⟨rfl, h⟩
  | _, _, _, [], value' :: values', hrest, _, h => by
      rw [Value.headingsOfAll, Value.headingsOfAll, List.append_assoc] at h
      exact absurd h (hrest.ne_headings_append value' _)
  | _, _, _, value :: values, [], _, hrest', h => by
      rw [Value.headingsOfAll, Value.headingsOfAll, List.append_assoc] at h
      exact absurd h.symm (hrest'.ne_headings_append value _)
  | depth, _, _, value :: values, value' :: values', hrest, hrest', h => by
      rw [Value.headingsOfAll, Value.headingsOfAll, List.append_assoc, List.append_assoc] at h
      obtain ⟨hvalue, hothers⟩ := Value.unnumbered_eq_of_headings value value'
        (endsValues_headingsOfAll_append hrest values)
        (endsValues_headingsOfAll_append hrest' values') h
      obtain ⟨hvalues, hend⟩ := Value.unnumberedAll_eq_of_headings values values' hrest hrest' hothers
      exact ⟨by rw [Value.unnumberedAll, Value.unnumberedAll, hvalue, hvalues], hend⟩

end

mutual

theorem Node.unnumbered_eq_of_headings : ∀ {depth : Nat} {rest rest' : List Heading}
    (node node' : Node), EndsNodes (depth + 1) rest → EndsNodes (depth + 1) rest' →
      Node.headings depth node ++ rest = Node.headings depth node' ++ rest' →
        node.unnumbered = node'.unnumbered ∧ rest = rest'
  | depth, rest, rest', .element name values content origin,
      .element name' values' content' origin', hrest, hrest', h => by
      obtain ⟨hhead, htail⟩ := List.cons.inj h
      obtain ⟨-, hcaption, hspan⟩ := Heading.mk.inj hhead
      obtain rfl := Caption.element.inj hcaption
      rw [List.append_eq, List.append_eq, List.append_assoc, List.append_assoc] at htail
      obtain ⟨hvalues, hinside⟩ := Value.unnumberedAll_eq_of_headings values values'
        (endsValues_nodes_append hrest content) (endsValues_nodes_append hrest' content') htail
      obtain ⟨hcontent, hothers⟩ :=
        Node.unnumberedAll_eq_of_headings content content' hrest hrest' hinside
      refine ⟨?_, hothers⟩
      rw [Node.unnumbered, Node.unnumbered, hvalues, hcontent, Origin.eq_of_span_eq hspan]
  | depth, rest, rest', .property name value origin, .property name' value' origin', hrest, hrest', h => by
      obtain ⟨hhead, htail⟩ := List.cons.inj h
      obtain ⟨-, hcaption, hspan⟩ := Heading.mk.inj hhead
      obtain rfl := Caption.property.inj hcaption
      obtain ⟨hvalue, hothers⟩ := Value.unnumbered_eq_of_headings value value' hrest.endsValues
        hrest'.endsValues htail
      refine ⟨?_, hothers⟩
      rw [Node.unnumbered, Node.unnumbered, hvalue, Origin.eq_of_span_eq hspan]
  | depth, rest, rest', .error message origin, .error message' origin', _, _, h => by
      obtain ⟨hhead, htail⟩ := List.cons.inj h
      obtain ⟨-, hcaption, hspan⟩ := Heading.mk.inj hhead
      obtain rfl := Caption.error.inj hcaption
      exact ⟨congrArg (Node.error message) (Origin.eq_of_span_eq hspan), htail⟩
  | _, _, _, .element .., .property .., _, _, h => by cases Node.caption_eq_of_headings h
  | _, _, _, .element .., .error .., _, _, h => by cases Node.caption_eq_of_headings h
  | _, _, _, .property .., .element .., _, _, h => by cases Node.caption_eq_of_headings h
  | _, _, _, .property .., .error .., _, _, h => by cases Node.caption_eq_of_headings h
  | _, _, _, .error .., .element .., _, _, h => by cases Node.caption_eq_of_headings h
  | _, _, _, .error .., .property .., _, _, h => by cases Node.caption_eq_of_headings h

theorem Node.unnumberedAll_eq_of_headings : ∀ {depth : Nat} {rest rest' : List Heading}
    (nodes nodes' : List Node), EndsNodes depth rest → EndsNodes depth rest' →
      Node.headingsOfAll depth nodes ++ rest = Node.headingsOfAll depth nodes' ++ rest' →
        Node.unnumberedAll nodes = Node.unnumberedAll nodes' ∧ rest = rest'
  | _, _, _, [], [], _, _, h => ⟨rfl, h⟩
  | _, _, _, [], node' :: nodes', hrest, _, h => by
      rw [Node.headingsOfAll, Node.headingsOfAll, List.append_assoc] at h
      exact absurd h (hrest.ne_headings_append node' _)
  | _, _, _, node :: nodes, [], _, hrest', h => by
      rw [Node.headingsOfAll, Node.headingsOfAll, List.append_assoc] at h
      exact absurd h.symm (hrest'.ne_headings_append node _)
  | _, _, _, node :: nodes, node' :: nodes', hrest, hrest', h => by
      rw [Node.headingsOfAll, Node.headingsOfAll, List.append_assoc, List.append_assoc] at h
      obtain ⟨hnode, hothers⟩ := Node.unnumbered_eq_of_headings node node'
        (endsNodes_headingsOfAll_append hrest nodes) (endsNodes_headingsOfAll_append hrest' nodes') h
      obtain ⟨hnodes, hend⟩ := Node.unnumberedAll_eq_of_headings nodes nodes' hrest hrest' hothers
      exact ⟨by rw [Node.unnumberedAll, Node.unnumberedAll, hnode, hnodes], hend⟩

end

/-- The headings of a document are those of no other one, whatever the numbers are. -/
theorem unnumbered_eq_of_headings_eq {a b : Document} (h : a.headings = b.headings) :
    Node.unnumberedAll a.content = Node.unnumberedAll b.content := by
  have hends : EndsNodes 0 [] := fun _ hheading => by cases hheading
  have happend : a.headings ++ [] = b.headings ++ [] := by rw [h]
  exact (Node.unnumberedAll_eq_of_headings _ _ hends hends happend).1

end Document

end Declarative
