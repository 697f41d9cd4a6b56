import Declarative.Proofs.Preorder

/-!
# Scripts with other names

Each call and each assignment has a name. What the names of a script become can depend on the number
of the node and on where the name is written (`Script.named`); where one node alone gets another
name, the script is `Script.renamed`. Only the names that the nodes have matter for the outcome
(`Script.named_congr`).
-/

namespace Declarative

mutual

/-- The value with the names that the function gives. -/
def Value.named (f : NodeId → Name → String) : Value → Value
  | .literal id span content => .literal id span content
  | .factory id span name arguments =>
    .factory id span { name with text := f id name } (Value.namedAll f arguments)

def Value.namedAll (f : NodeId → Name → String) : List Value → List Value
  | [] => []
  | value :: values => value.named f :: Value.namedAll f values

end

mutual

def Statement.named (f : NodeId → Name → String) : Statement → Statement
  | .call id span name arguments body =>
    .call id span { name with text := f id name } (Value.namedAll f arguments) (body.named f)
  | .assign id span target value =>
    .assign id span { target with text := f id target } (value.named f)
  | .error id span message => .error id span message

def Body.named (f : NodeId → Name → String) : Body → Body
  | .absent => .absent
  | .block id span statements => .block id span (Statement.namedAll f statements)

def Statement.namedAll (f : NodeId → Name → String) : List Statement → List Statement
  | [] => []
  | statement :: statements => statement.named f :: Statement.namedAll f statements

end

namespace Script

def named (script : Script) (f : NodeId → Name → String) : Script :=
  { script with statements := Statement.namedAll f script.statements }

/-- The script with another name for the node of a number. -/
def renamed (script : Script) (id : NodeId) (name : String) : Script :=
  script.named fun other written => if other = id then name else written.text

/-- The two functions give the node the same name. -/
def Node.NamedAlike (f g : NodeId → Name → String) (node : Node) : Prop :=
  ∀ name, node.written? = some name → f node.id name = g node.id name

end Script

/-! ## Which names matter -/

section

variable {f g : NodeId → Name → String}

mutual

theorem Value.named_congr : ∀ {v : Value}, (∀ node ∈ v.preorder, node.NamedAlike f g) →
    v.named f = v.named g
  | .literal _ _ _, _ => rfl
  | .factory id span name arguments, h => by
      rw [Value.preorder, List.forall_mem_cons] at h
      obtain ⟨hself, harguments⟩ := h
      have hname : f id name = g id name := hself name rfl
      rw [Value.named, Value.named, hname, Value.namedAll_congr harguments]

theorem Value.namedAll_congr : ∀ {vs : List Value},
    (∀ node ∈ Value.preorderAll vs, node.NamedAlike f g) →
      Value.namedAll f vs = Value.namedAll g vs
  | [], _ => rfl
  | v :: vs, h => by
      rw [Value.preorderAll, List.forall_mem_append] at h
      rw [Value.namedAll, Value.namedAll, Value.named_congr h.1, Value.namedAll_congr h.2]

end

mutual

theorem Statement.named_congr : ∀ {s : Statement}, (∀ node ∈ s.preorder, node.NamedAlike f g) →
    s.named f = s.named g
  | .call id span name arguments body, h => by
      rw [Statement.preorder, List.forall_mem_cons, List.forall_mem_append] at h
      obtain ⟨hself, harguments, hbody⟩ := h
      have hname : f id name = g id name := hself name rfl
      rw [Statement.named, Statement.named, hname, Value.namedAll_congr harguments,
        Body.named_congr hbody]
  | .assign id span target value, h => by
      rw [Statement.preorder, List.forall_mem_cons] at h
      obtain ⟨hself, hvalue⟩ := h
      have hname : f id target = g id target := hself target rfl
      rw [Statement.named, Statement.named, hname, Value.named_congr hvalue]
  | .error _ _ _, _ => rfl

theorem Body.named_congr : ∀ {body : Body},
    (∀ node ∈ Statement.preorderBody body, node.NamedAlike f g) → body.named f = body.named g
  | .absent, _ => rfl
  | .block _ _ statements, h => by
      rw [Body.named, Body.named, Statement.namedAll_congr h]

theorem Statement.namedAll_congr : ∀ {ss : List Statement},
    (∀ node ∈ Statement.preorderAll ss, node.NamedAlike f g) →
      Statement.namedAll f ss = Statement.namedAll g ss
  | [], _ => rfl
  | s :: ss, h => by
      rw [Statement.preorderAll, List.forall_mem_append] at h
      rw [Statement.namedAll, Statement.namedAll, Statement.named_congr h.1,
        Statement.namedAll_congr h.2]

end

theorem Script.named_congr {script : Script}
    (h : ∀ node ∈ script.preorder, node.NamedAlike f g) : script.named f = script.named g :=
  congrArg (fun statements => { script with statements }) (Statement.namedAll_congr h)

end

/-! ## The names that are there -/

mutual

theorem Value.named_text : ∀ v : Value, v.named (fun _ => Name.text) = v
  | .literal _ _ _ => rfl
  | .factory _ _ _ arguments => by rw [Value.named, Value.namedAll_text arguments]

theorem Value.namedAll_text : ∀ vs : List Value, Value.namedAll (fun _ => Name.text) vs = vs
  | [] => rfl
  | v :: vs => by rw [Value.namedAll, Value.named_text v, Value.namedAll_text vs]

end

mutual

theorem Statement.named_text : ∀ s : Statement, s.named (fun _ => Name.text) = s
  | .call _ _ _ arguments body => by
      rw [Statement.named, Value.namedAll_text arguments, Body.named_text body]
  | .assign _ _ _ value => by rw [Statement.named, Value.named_text value]
  | .error _ _ _ => rfl

theorem Body.named_text : ∀ body : Body, body.named (fun _ => Name.text) = body
  | .absent => rfl
  | .block _ _ statements => by rw [Body.named, Statement.namedAll_text statements]

theorem Statement.namedAll_text : ∀ ss : List Statement,
    Statement.namedAll (fun _ => Name.text) ss = ss
  | [] => rfl
  | s :: ss => by rw [Statement.namedAll, Statement.named_text s, Statement.namedAll_text ss]

end

theorem Script.named_text (script : Script) : script.named (fun _ => Name.text) = script := by
  rw [Script.named, Statement.namedAll_text]

end Declarative
