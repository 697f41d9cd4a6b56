import Declarative.Proofs.Parser.PassingOver
import Declarative.Proofs.Siblings

/-!
# A malformed statement does not disturb its siblings

Between well-formed statements that have their ends, a malformed statement with a line feed behind it
yields one fault and one error statement, and the statements around it are those that their tokens
yield anyway. The same holds in the block of a call, on every level that there is room for
(`Script.isolated_ofTokens`): the tokens around the block yield a call with its siblings, whatever
stands in the block (`Parser.Wrapper.exists_enclosure`).
-/

namespace Declarative.Script

open Token (Kind)

namespace Parser

/-! ## Blocks of calls -/

theorem fullFuel_sub {depth : Nat} (h : depth < maxDepth) :
    fullFuel - depth = fullFuel - (depth + 1) + 1 := by
  rw [fullFuel]
  omega

/-- Braces around what yields statements make a block of these. -/
theorem block_of_yields {depth : Nat} {inner rest : List Token} {opening closing : Token}
    {found : List Fault} {statements : List Statement} (hroom : depth < maxDepth)
    (hopen : opening.kind = .leftBrace) (hclose : closing.kind = .rightBrace)
    (h : Yields (depth + 1) inner Grammar.Closes found statements) {s : Reader}
    (hs : s.unread = opening :: (inner ++ closing :: rest)) (hdepth : s.depth = depth)
    (hfew : s.faults.length + found.length < maxFaults) :
    ∃ body s', block (fullFuel - depth) s = (.ok body, s') ∧ s'.unread = rest
      ∧ s'.lastEnd = closing.span.stop ∧ s'.faults = s.faults ++ found
      ∧ body.unnumbered = .block ⟨0⟩ (opening.span.cover closing.span) statements := by
  let entered : Reader := { s with depth := s.depth + 1 }
  let s₀ := entered.takeId.2.skip 1
  have hs₀ : s₀.unread = inner ++ closing :: rest := by simp [s₀, entered, Reader.skip, Reader.takeId, hs]
  obtain ⟨read, s₁, hseries, hunread, hfaults, hread⟩ :=
    h hs₀ (show closing.kind = _ from hclose) (congrArg (· + 1) hdepth) hfew
  have hpeek : s.peek = .leftBrace := by rw [Reader.peek, hs]; exact hopen
  have hpeek₁ : s₁.peek = .rightBrace := by rw [Reader.peek, hunread]; exact hclose
  have hhere : s.here = opening.span := by rw [Reader.here, hs]
  have hhere₁ : s₁.here = closing.span := by rw [Reader.here, hunread]
  have hself : s₁.skipSeparators = s₁ := Reader.skipSeparators_eq_self (Or.inr hpeek₁)
  have hloop := hseries.blockStatements_eq (by rw [hself, hpeek₁]) s.here
  rw [hself] at hloop
  have hinner := blockWith_eq_ok.mpr ⟨read, s₁, (show entered.peek = .leftBrace from hpeek), hloop,
    rfl, rfl⟩
  have hblock := nested_eq_ok.mpr ⟨hdepth ▸ hroom, s₁.skip 1, hinner, rfl⟩
  have hfuel : block (fullFuel - depth) = nested (blockWith (statementAt (depth + 1))) := by
    rw [fullFuel_sub hroom]
    rfl
  rw [hfuel]
  refine ⟨_, _, hblock, by simp [Reader.skip, hunread], by simp [Reader.skip, hunread], hfaults, ?_⟩
  rw [Body.unnumbered, hread, hhere₁, ← hhere]
  rfl

/-- The tokens around a place for statements: a call whose block is the place, with what stands
before and behind the call. -/
structure Wrapper where
  before : List Token
  name : Name
  /-- With the parentheses; there may be none. -/
  arguments : List Token
  opening : Span
  closing : Span
  behind : List Token

namespace Wrapper

def call (w : Wrapper) (inner : List Token) : List Token :=
  ⟨.ident w.name.text, w.name.span⟩
    :: (w.arguments ++ ⟨.leftBrace, w.opening⟩ :: (inner ++ [⟨.rightBrace, w.closing⟩]))

def wrap (w : Wrapper) (inner : List Token) : List Token := w.before ++ (w.call inner ++ w.behind)

/-- The tokens are put into the block of the last call, that call into the block of the one before
it, and so on. -/
def wrapAll : List Wrapper → List Token → List Token
  | [], inner => inner
  | w :: around, inner => w.wrap (wrapAll around inner)

/-- Inside of so many blocks there is room for the call, and what stands around it is well-formed. -/
structure WellFormed (depth : Nat) (w : Wrapper) : Prop where
  room : depth < maxDepth
  before : Grammar.WellFormed (maxDepth - depth) (w.before.map (·.kind))
  ended : Grammar.Terminated (w.before.map (·.kind))
  arguments : w.arguments = [] ∨ ∃ trees, Grammar.Arguments trees (w.arguments.map (·.kind))
    ∧ Plain.Value.heightAll trees ≤ maxDepth - depth
  behind : Grammar.WellFormed (maxDepth - depth) (w.behind.map (·.kind))
  follows : Grammar.Follows (w.behind.map (·.kind))

def WellFormedAll : Nat → List Wrapper → Prop
  | _, [] => True
  | depth, w :: around => w.WellFormed depth ∧ WellFormedAll (depth + 1) around

end Wrapper

section

variable {w : Wrapper} {depth : Nat} (h : w.WellFormed depth)

include h

/-- Behind its name the call goes on with a block of what its block yields. -/
theorem Wrapper.exists_call : ∃ values, ∀ {inner : List Token} {found : List Fault}
    {statements : List Statement}, Yields (depth + 1) inner Grammar.Closes found statements →
      ∀ {s : Reader} {rest : List Token}, s.unread = w.call inner ++ rest → s.depth = depth →
      s.faults.length + found.length < maxFaults →
        ∃ make s', statementRest (value (fullFuel - depth)) (block (fullFuel - depth)) w.name
            (s.skip 1) = (.ok make, s')
          ∧ s'.unread = rest ∧ s'.lastEnd = w.closing.stop ∧ s'.faults = s.faults ++ found
          ∧ ∀ id span, (make id span).unnumbered
              = .call ⟨0⟩ span w.name values (.block ⟨0⟩ (w.opening.cover w.closing) statements) := by
  have hroom := h.room
  have hcall {inner rest : List Token} {s : Reader} (hs : s.unread = w.call inner ++ rest) :
      (s.skip 1).unread = w.arguments ++ ⟨.leftBrace, w.opening⟩
        :: (inner ++ ⟨.rightBrace, w.closing⟩ :: rest) := by
    simp [Reader.skip, hs, Wrapper.call]
  rcases h.arguments with hnone | ⟨trees, harguments, hheight⟩
  · refine ⟨[], ?_⟩
    intro inner found statements hinner s rest hs hdepth hfew
    have hbrace := hcall hs
    rw [hnone, List.nil_append] at hbrace
    obtain ⟨body, s', hbody, hunread, hlast, hfaults, hsame⟩ :=
      block_of_yields hroom rfl rfl hinner hbrace hdepth hfew
    have hpeek : (s.skip 1).peek = .leftBrace := by rw [Reader.peek, hbrace]
    refine ⟨_, s', statementRest_eq_ok.mpr (Or.inr (Or.inr (Or.inr ⟨body, hpeek, hbody, rfl⟩))),
      hunread, hlast, hfaults, fun id span => ?_⟩
    rw [Statement.unnumbered, hsame]
    rfl
  · obtain ⟨values, hvalues⟩ := exists_arguments (Nat.sub_le maxDepth depth) harguments hheight
    refine ⟨values, ?_⟩
    intro inner found statements hinner s rest hs hdepth hfew
    obtain ⟨read, s₁, hread, hunread₁, hfaults₁, hsame₁⟩ :=
      hvalues depth (by omega) (hcall hs) hdepth
    have honward := (arguments_keeps Reader.onward_steady.elementary (value_goesOn _)).of_eq hread
    have hdepth₁ : s₁.depth = depth := honward.depth.trans hdepth
    obtain ⟨body, s', hbody, hunread, hlast, hfaults, hsame⟩ :=
      block_of_yields hroom rfl rfl hinner hunread₁ hdepth₁ (by rw [hfaults₁]; exact hfew)
    have hpeek : s₁.peek = .leftBrace := by rw [Reader.peek, hunread₁]
    refine ⟨_, s', statementRest_eq_ok.mpr (Or.inr (Or.inr (Or.inl ⟨read, s₁, body, hread, hpeek,
      hbody, rfl⟩))), hunread, hlast, by rw [hfaults, hfaults₁]; rfl, fun id span => ?_⟩
    rw [Statement.unnumbered, hsame₁, hsame]

/-- What stands behind the call ends it, and yields statements. -/
theorem Wrapper.exists_behind : ∃ statements, ∀ {s : Reader} {rest : List Token},
    s.unread = w.behind ++ rest → Grammar.Closes (rest.map (·.kind)) → s.depth = depth →
      s.faults.length < maxFaults →
        ∃ s₁ read s', terminator s = (.ok (), s₁) ∧ Series (statementAt depth) s₁ read s'
          ∧ s'.unread = rest ∧ s'.faults = s.faults ∧ Statement.unnumberedAll read = statements := by
  obtain ⟨trees, hderives, hheight⟩ := h.behind
  have hfollows := h.follows
  have hroom := h.room
  cases hbehind : w.behind with
  | nil =>
      refine ⟨[], ?_⟩
      intro s rest hs hcloses _ _
      rw [List.nil_append] at hs
      have hpeek := Reader.closes_unread_iff.mp (hs ▸ Reader.closes_of_kinds hcloses)
      exact ⟨s, [], s, terminator_eq_ok.mpr (Or.inr ⟨hpeek, rfl⟩), .done, hs, rfl, rfl⟩
  | cons t others =>
      rw [hbehind] at hderives hfollows
      have hseparator : t.kind.isSeparator = true := by
        refine hfollows.resolve_right fun hbrace => ?_
        rcases hderives.starts with hkind | ⟨name, hname⟩
        · rw [hbrace] at hkind
          cases hkind
        · cases hbrace.symm.trans hname
      obtain ⟨statements, hyields⟩ := exists_yields (Nat.sub_le maxDepth depth)
        ⟨trees, hderives.of_separator hseparator, hheight⟩
      refine ⟨statements, ?_⟩
      intro s rest hs hcloses hdepth hfew
      have hpeek : s.peek = t.kind := by rw [Reader.peek, hs]; rfl
      have hunread : (s.skip 1).unread = others ++ rest := by simp [Reader.skip, hs]
      obtain ⟨read, s', hseries, hunread', hfaults, hsame⟩ :=
        hyields depth (by omega) hunread (Or.inr hcloses) hdepth hfew
      rw [List.append_nil] at hfaults
      exact ⟨s.skip 1, read, s', terminator_eq_ok.mpr (Or.inl ⟨hpeek ▸ hseparator, rfl⟩), hseries,
        hunread', hfaults, hsame⟩

/-- What stands around a place for statements yields a call with its siblings, whatever is put
there. -/
theorem Wrapper.exists_enclosure : ∃ enclosure : Enclosure, enclosure.name = w.name
    ∧ enclosure.blockSpan = w.opening.cover w.closing
    ∧ ∀ {inner : List Token} {found : List Fault} {statements : List Statement},
      Yields (depth + 1) inner Grammar.Closes found statements →
        Yields depth (w.wrap inner) Grammar.Closes found (enclosure.fill statements) := by
  have hroom := h.room
  obtain ⟨before, hbefore⟩ := exists_yields (Nat.sub_le maxDepth depth) h.before
  obtain ⟨values, hcall⟩ := w.exists_call h
  obtain ⟨behind, hbehind⟩ := w.exists_behind h
  let enclosure : Enclosure := ⟨before, ⟨0⟩, ⟨w.name.span.start, w.closing.stop⟩, w.name, values, ⟨0⟩,
    w.opening.cover w.closing, behind⟩
  refine ⟨enclosure, rfl, rfl, ?_⟩
  intro inner found statements hinner s rest hs hcloses hdepth hfew
  rw [Wrapper.wrap, List.append_assoc, List.append_assoc] at hs
  obtain ⟨read, s₁, hseries, hunread₁, hfaults₁, hsame⟩ :=
    hbefore depth (by omega) hs (Or.inl h.ended) hdepth (Nat.lt_of_le_of_lt (Nat.le_add_right ..) hfew)
  rw [List.append_nil] at hfaults₁
  have hdepth₁ : s₁.depth = depth := (hseries.onward (statementAt_goesOn depth)).depth.trans hdepth
  have hname : s₁.peek = .ident w.name.text ∧ w.name.span = s₁.here := by
    rw [Reader.peek, Reader.here, hunread₁]
    exact ⟨rfl, rfl⟩
  obtain ⟨make, s₂, hrest, hunread₂, hlast, hfaults₂, hmake⟩ :=
    @hcall _ _ _ hinner s₁.takeId.2 _ hunread₁ hdepth₁ (hfaults₁ ▸ hfew)
  have hfaults₂' : s₂.faults = s.faults ++ found := hfaults₂.trans (congrArg (· ++ found) hfaults₁)
  have honward := (statementRest_keeps Reader.onward_steady.elementary (value_goesOn _)
    (block_goesOn _) w.name).of_eq hrest
  obtain ⟨s₃, read', s', hend, hseries', hunread', hfaults', hsame'⟩ :=
    hbehind hunread₂ hcloses (honward.depth.trans hdepth₁) (by
      rw [hfaults₂', List.length_append]
      exact hfew)
  have hstatement : statementAt depth ⟨s₁.nextId⟩ s₁.takeId.2
      = (.ok (make ⟨s₁.nextId⟩ ⟨s₁.here.start, s₂.lastEnd⟩), s₃) :=
    statement_eq_ok.mpr ⟨w.name, make, s₂, hname.1, hname.2, hrest, hend, rfl⟩
  have hround : BlockRound (statementAt depth) s₁ _ s₃ :=
    ⟨by simp [hname.1], by simp [hname.1], recovering_of_ok hstatement⟩
  have hlt : s₃.unread.length < s₁.takeId.2.unread.length := statement_length_lt hstatement
  refine ⟨_, s', hseries.append (.round hround (by rw [hname.1]; rfl) hlt hseries'), hunread',
    hfaults'.trans hfaults₂', ?_⟩
  rw [Statement.unnumberedAll_append, Statement.unnumberedAll, hsame, hsame', hmake, hlast,
    ← hname.2]
  rfl

end

/-- The calls around a place are the same whatever is put there. -/
theorem Wrapper.exists_enclosures : ∀ {around : List Wrapper} {depth : Nat},
    WellFormedAll depth around → ∃ enclosures : List Enclosure,
      enclosures.map (fun e => (e.name, e.blockSpan))
          = around.map (fun w => (w.name, w.opening.cover w.closing))
        ∧ ∀ {inner : List Token} {found : List Fault} {statements : List Statement},
          Yields (depth + around.length) inner Grammar.Closes found statements →
            Yields depth (wrapAll around inner) Grammar.Closes found
              (Enclosure.fillAll enclosures statements)
  | [], _, _ => ⟨[], rfl, fun hinner => hinner⟩
  | w :: around, depth, ⟨hw, haround⟩ => by
      obtain ⟨enclosure, hname, hspan, hfill⟩ := w.exists_enclosure hw
      obtain ⟨enclosures, hnames, hfillAll⟩ := exists_enclosures haround
      refine ⟨enclosure :: enclosures, ?_, fun hinner => hfill (hfillAll ?_)⟩
      · rw [List.map_cons, List.map_cons, hname, hspan, hnames]
      · rwa [List.length_cons, Nat.add_comm around.length, ← Nat.add_assoc] at hinner

end Parser

/-! ## Scripts -/

/-- What the tokens of a whole text yield is what is read from the text. -/
theorem ofTokens_of_yields (source : String) {tokens : List Token} {last : Token}
    {found : List Fault} {statements : List Statement}
    (htokens : ∀ t ∈ tokens, t.kind ≠ .eof) (hlast : last.kind = .eof)
    (h : Parser.Yields 0 tokens Grammar.Closes found statements) (hfew : found.length < maxFaults) :
    (ofTokens source (tokens ++ [last])).faults = found
      ∧ Statement.unnumberedAll (ofTokens source (tokens ++ [last])).script.statements
        = statements := by
  let s := Reader.ofTokens (tokens ++ [last])
  have hs : s.unread = tokens ++ [] := by
    rw [List.append_nil]
    exact Reader.unread_ofTokens htokens hlast
  obtain ⟨read, s', hseries, hunread, hfaults, hread⟩ :=
    h hs trivial rfl ((Nat.zero_add _).trans_lt hfew)
  have hend : s'.peek = .eof := by rw [Reader.peek, hunread]
  have hself : s'.skipSeparators = s' := Reader.skipSeparators_eq_self (Or.inl hend)
  have htop := hseries.topStatements_eq (by rw [hself, hend])
  rw [hself] at htop
  obtain ⟨hstatements, hstate⟩ := Prod.ext_iff.mp htop
  exact ⟨(congrArg Reader.faults hstate).trans hfaults,
    (congrArg Statement.unnumberedAll hstatements).trans hread⟩

section

open Script.Parser (Wrapper Yields exists_yields exists_fault)

theorem ne_eof_of_wellFormed {room : Nat} {tokens : List Token}
    (h : Grammar.WellFormed room (tokens.map (·.kind))) : ∀ t ∈ tokens, t.kind ≠ .eof := by
  obtain ⟨trees, hderives, -⟩ := h
  exact fun t ht heof => hderives.eof_notMem (heof ▸ List.mem_map_of_mem ht)

theorem Parser.Wrapper.ne_eof {inner : List Token} (hinner : ∀ t ∈ inner, t.kind ≠ .eof) :
    ∀ {around : List Wrapper} {depth : Nat}, Wrapper.WellFormedAll depth around →
      ∀ t ∈ Wrapper.wrapAll around inner, t.kind ≠ .eof
  | [], _, _ => hinner
  | w :: around, depth, ⟨hw, haround⟩ => by
      have hrest := ne_eof hinner haround
      have hbefore := ne_eof_of_wellFormed hw.before
      have hbehind := ne_eof_of_wellFormed hw.behind
      have harguments : ∀ t ∈ w.arguments, t.kind ≠ .eof := by
        rcases hw.arguments with hnone | ⟨trees, hderives, -⟩
        · simp [hnone]
        · exact fun t ht heof => hderives.eof_notMem (heof ▸ List.mem_map_of_mem ht)
      intro t ht
      simp only [Wrapper.wrapAll, Wrapper.wrap, Wrapper.call, List.mem_append, List.mem_cons,
        List.not_mem_nil, or_false] at ht
      rcases ht with ht | (rfl | ht | rfl | ht | rfl) | ht
      · exact hbefore t ht
      · nofun
      · exact harguments t ht
      · nofun
      · exact hrest t ht
      · nofun
      · exact hbehind t ht

theorem Parser.Wrapper.length_le : ∀ {around : List Wrapper} {depth : Nat}, depth ≤ maxDepth →
    Wrapper.WellFormedAll depth around → depth + around.length ≤ maxDepth
  | [], _, hdepth, _ => hdepth
  | w :: around, depth, _, ⟨hw, haround⟩ => by
      have hle := length_le (Nat.succ_le_of_lt hw.room) haround
      rw [List.length_cons]
      omega

variable {around : List Wrapper} {before malformed after : List Token} {newline last : Token}
  (haround : Wrapper.WellFormedAll 0 around)
  (hbefore : Grammar.WellFormed (maxDepth - around.length) (before.map (·.kind)))
  (hended : Grammar.Terminated (before.map (·.kind)))
  (hmalformed : Grammar.Malformed (malformed.map (·.kind)))
  (heof : ∀ t ∈ malformed, t.kind ≠ .eof) (hnewline : newline.kind = .newline)
  (hafter : Grammar.WellFormed (maxDepth - around.length) (after.map (·.kind)))
  (hlast : last.kind = .eof)

include haround hbefore hended hmalformed heof hnewline hafter hlast

/-- **A malformed statement does not disturb its siblings**: outside of all blocks as well as in the
block of a call, there is one fault, and one error statement that reaches over the malformed tokens
stands between the statements before and after, which are the same, up to numbers, as where they
stand alone. -/
theorem isolated_ofTokens (source : String) :
    let alone tokens :=
      Statement.unnumberedAll (ofTokens source (tokens ++ [last])).script.statements
    let inside := before ++ malformed ++ newline :: after
    ∃ (fault : Fault) (enclosures : List Enclosure),
      (ofTokens source (Wrapper.wrapAll around inside ++ [last])).faults = [fault]
        ∧ enclosures.map (fun e => (e.name, e.blockSpan))
          = around.map (fun w => (w.name, w.opening.cover w.closing))
        ∧ alone (Wrapper.wrapAll around []) = Enclosure.fillAll enclosures []
        ∧ alone (Wrapper.wrapAll around inside) = Enclosure.fillAll enclosures
            (alone before ++ .error ⟨0⟩ (Token.extent malformed) fault.message :: alone after) := by
  intro alone inside
  have hlength := Wrapper.length_le (Nat.zero_le _) haround
  obtain ⟨enclosures, hnames, hfill⟩ := Wrapper.exists_enclosures haround
  obtain ⟨fault, hfault⟩ := exists_fault hmalformed heof hnewline around.length
  obtain ⟨first, hfirst⟩ := exists_yields (Nat.sub_le _ _) hbefore
  obtain ⟨others, hothers⟩ := exists_yields (Nat.sub_le _ _) hafter
  have hroom : around.length + (maxDepth - around.length) ≤ maxDepth := by omega
  have hzero : 0 + (maxDepth - around.length) ≤ maxDepth := by omega
  have hempty : Yields (0 + around.length) [] Grammar.Closes [] [] :=
    fun s _ hs _ _ _ => ⟨[], s, .done, hs, (List.append_nil _).symm, rfl⟩
  have hinside : Yields (0 + around.length) inside Grammar.Closes [fault]
      (first ++ .error ⟨0⟩ (Token.extent malformed) fault.message :: others) := by
    have hall := (hfirst _ hroom).append (hfault.append (hothers _ hroom) fun _ _ => trivial)
      fun _ _ => Or.inl hended
    rw [Nat.zero_add, show inside = before ++ (malformed ++ [newline] ++ after) by simp [inside]]
    exact hall.mono fun _ => Or.inr
  have hwhole : ∀ t ∈ inside, t.kind ≠ .eof := by
    intro t ht
    simp only [inside, List.mem_append, List.mem_cons] at ht
    rcases ht with (ht | ht) | rfl | ht
    · exact ne_eof_of_wellFormed hbefore t ht
    · exact heof t ht
    · simp [hnewline]
    · exact ne_eof_of_wellFormed hafter t ht
  have hnone : 0 < maxFaults := by decide
  have hfew : 1 < maxFaults := by decide
  obtain ⟨-, halone₁⟩ := ofTokens_of_yields source (ne_eof_of_wellFormed hbefore) hlast
    ((hfirst 0 hzero).mono fun _ => Or.inr) hnone
  obtain ⟨-, halone₂⟩ := ofTokens_of_yields source (ne_eof_of_wellFormed hafter) hlast
    ((hothers 0 hzero).mono fun _ => Or.inr) hnone
  obtain ⟨-, hplace⟩ := ofTokens_of_yields source (Wrapper.ne_eof (List.forall_mem_nil _) haround) hlast
    (hfill hempty) hnone
  obtain ⟨hfaults, hstatements⟩ := ofTokens_of_yields source
    (Wrapper.ne_eof hwhole haround) hlast (hfill hinside) hfew
  refine ⟨fault, enclosures, hfaults, hnames, hplace, hstatements.trans ?_⟩
  rw [show alone before = first from halone₁, show alone after = others from halone₂]

end

/-- In the block of a bed, a line with a parenthesis too much and a pair of braces over two lines. -/
theorem isolated_ofTokens_bed :
    let token (kind : Kind) (i : Nat) : Token := ⟨kind, ⟨i, i + 1⟩⟩
    let around : List Parser.Wrapper := [⟨[], ⟨"bed", ⟨0, 1⟩⟩, [], ⟨1, 2⟩, ⟨14, 15⟩, []⟩]
    let before := [token (.ident "a") 2, token .equals 3, token (.int 1) 4, token .semicolon 5]
    let malformed := [token .rightParen 6, token .leftBrace 7, token .newline 8, token .rightBrace 9]
    let after := [token (.ident "b") 11, token .equals 12, token .null 13]
    let last := token .eof 15
    let alone tokens :=
      Statement.unnumberedAll (ofTokens "bed" (tokens ++ [last])).script.statements
    let inside := before ++ malformed ++ token .newline 10 :: after
    Parser.Wrapper.WellFormedAll 0 around
      ∧ Grammar.WellFormed (maxDepth - around.length) (before.map (·.kind))
      ∧ Grammar.Terminated (before.map (·.kind)) ∧ Grammar.Malformed (malformed.map (·.kind))
      ∧ (∀ t ∈ malformed, t.kind ≠ .eof) ∧ (token .newline 10).kind = .newline
      ∧ Grammar.WellFormed (maxDepth - around.length) (after.map (·.kind)) ∧ last.kind = .eof
      ∧ ∃ (fault : Fault) (enclosures : List Enclosure),
        (ofTokens "bed" (Parser.Wrapper.wrapAll around inside ++ [last])).faults = [fault]
          ∧ enclosures.map (fun e => (e.name, e.blockSpan))
            = around.map (fun w => (w.name, w.opening.cover w.closing))
          ∧ alone (Parser.Wrapper.wrapAll around []) = Enclosure.fillAll enclosures []
          ∧ alone (Parser.Wrapper.wrapAll around inside) = Enclosure.fillAll enclosures
              (alone before ++ .error ⟨0⟩ (Token.extent malformed) fault.message :: alone after) := by
  intro token around before malformed after last alone inside
  have hsemicolon : Kind.semicolon.isSeparator = true := rfl
  have hnewline : Kind.newline.isSeparator = true := rfl
  have hnothing : ∀ room, Grammar.WellFormed room [] := fun room => ⟨[], .none, Nat.zero_le _⟩
  have hroom : 0 < maxDepth := by decide
  have haround : Parser.Wrapper.WellFormedAll 0 around :=
    ⟨⟨hroom, hnothing _, nofun, Or.inl rfl, hnothing _, trivial⟩, trivial⟩
  have hassign : Grammar.Statement (.assign "a" (.literal (.int 1))) [.ident "a", .equals, .int 1] :=
    .assign .literal
  have hbefore : Grammar.WellFormed (maxDepth - around.length) (before.map (·.kind)) :=
    ⟨[_], .more hassign hsemicolon .none, by decide⟩
  have hended : Grammar.Terminated (before.map (·.kind)) := by decide
  have hbalanced : Grammar.Balanced 0 (malformed.map (·.kind)) :=
    .other rfl nofun nofun (.opening (.separator hnewline (.closing .done)))
  have hmalformed : Grammar.Malformed (malformed.map (·.kind)) :=
    .garbled nofun rfl nofun hbalanced
  have heof : ∀ t ∈ malformed, t.kind ≠ .eof := by decide
  have hafter : Grammar.WellFormed (maxDepth - around.length) (after.map (·.kind)) :=
    ⟨[.assign "b" (.literal .null)], .last (.assign .literal), by decide⟩
  exact ⟨haround, hbefore, hended, hmalformed, heof, rfl, hafter, rfl,
    isolated_ofTokens haround hbefore hended hmalformed heof rfl hafter rfl "bed"⟩

end Declarative.Script
