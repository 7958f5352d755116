import DotLang.Proofs.Graph.Store
import DotLang.Proofs.Syntax.Truncation
import DotLang.Proofs.Syntax.Viability

/-!
# The first bad value

The texts in a document are converted when the lists that they are in have been read, so not
where they stand: the list of an edge comes behind the braces of its ends, and what is in these
is converted before. Still the first text of a document that does not convert is the one that is
reported, at its place. For the assignments whose lists have been read are always the first ones
of the text, and those of the list that is being read come next.

* `Document.conversions`: the assignments of a document in the order of its text;
* `assignmentsIn`: the assignments among tokens, each with its place;
* `Progress.Reads.accounted`: all assignments among the tokens read are accounted for;
* `Parsed.pair_conversions`: the assignments of a document that is parsed;
* `Closes.prefix_conversions`: the assignments read are the first ones of a document;
* `Graph.first_bad_value`: the error of a sentence that has no graph.
-/

namespace DotLang

open Grammar

/-! ### The assignments of a document -/

/-- A text that is assigned to a key of an owner. -/
structure Conversion where
  owner : Owner
  key : String
  text : String

/-- The key and the text of an assignment. -/
def Conversion.pair (c : Conversion) : String × String := (c.key, c.text)

/-- The text can be assigned. -/
def Conversion.Succeeds (c : Conversion) : Prop :=
  ∀ a : Attributes c.owner, ∃ b, a.set c.key c.text = .ok b

/-- What the text fails to be, and what a message says was expected instead. -/
inductive Conversion.Misses (c : Conversion) : Mismatch → String → Prop where
  | number (typed : c.owner.typeOf? c.key = some .number) (bad : Number.ofText? c.text = none) :
      Misses c .number "a number"
  | flag (typed : c.owner.typeOf? c.key = some .flag) (bad : c.text ∉ trueTexts ++ falseTexts) :
      Misses c .flag "a boolean"

/-- The assignments of a list. -/
def Owner.conversions (o : Owner) (pairs : Assignments) : List Conversion :=
  pairs.map fun pair => ⟨o, pair.1, pair.2⟩

mutual

/-- The assignments inside of an endpoint. -/
def Endpoint.conversions : Endpoint → List Conversion
  | .node _ => []
  | .subgraph _ body => conversionsAll true body

/-- The assignments of a statement and of those inside of it. The list of an edge stands behind
    its ends. -/
def Stmt.conversions (nested : Bool) : Stmt → List Conversion
  | .attributes target pairs => (target.owner nested).conversions pairs
  | .node _ pairs => Owner.node.conversions pairs
  | .subgraph _ body => conversionsAll true body
  | .edge ends pairs => conversionsEnds ends ++ Owner.edge.conversions pairs

/-- The assignments of statements. -/
def conversionsAll (nested : Bool) : List Stmt → List Conversion
  | [] => []
  | s :: body => s.conversions nested ++ conversionsAll nested body

/-- The assignments inside of endpoints. -/
def conversionsEnds : List Endpoint → List Conversion
  | [] => []
  | e :: ends => e.conversions ++ conversionsEnds ends

end

/-- The assignments of a document. -/
def Document.conversions (d : Document) : List Conversion := conversionsAll false d.body

theorem Owner.conversions_append (o : Owner) (pairs more : Assignments) :
    o.conversions (pairs ++ more) = o.conversions pairs ++ o.conversions more :=
  List.map_append

theorem conversionsAll_append (nested : Bool) (body more : List Stmt) :
    conversionsAll nested (body ++ more) =
      conversionsAll nested body ++ conversionsAll nested more := by
  induction body with
  | nil => rfl
  | cons s body ih => rw [List.cons_append, conversionsAll, ih, conversionsAll, List.append_assoc]

theorem conversionsEnds_append (ends more : List Endpoint) :
    conversionsEnds (ends ++ more) = conversionsEnds ends ++ conversionsEnds more := by
  induction ends with
  | nil => rfl
  | cons e ends ih => rw [List.cons_append, conversionsEnds, ih, conversionsEnds, List.append_assoc]

theorem conversionsAll_concat (nested : Bool) (body : List Stmt) (s : Stmt) :
    conversionsAll nested (body ++ [s]) = conversionsAll nested body ++ s.conversions nested := by
  rw [conversionsAll_append, conversionsAll, conversionsAll, List.append_nil]

theorem conversionsEnds_concat (ends : List Endpoint) (e : Endpoint) :
    conversionsEnds (ends ++ [e]) = conversionsEnds ends ++ e.conversions := by
  rw [conversionsEnds_append, conversionsEnds, conversionsEnds, List.append_nil]

/-! ### The assignments among tokens -/

/-- The key and the text of an assignment. -/
def Entry.pair (e : Entry) : String × String := (e.key, e.text)

/-- The equals signs among tokens, each with the key before it and the text behind it. -/
def assignmentsIn : List Token → List Entry
  | k :: e :: v :: ts =>
    (if e.kind = .equal then [⟨k.value, v.value, v.pos⟩] else []) ++ assignmentsIn (e :: v :: ts)
  | _ => []

/-- The key that a text is assigned to if it stands behind the tokens. -/
def openKey? : List Token → Option String
  | [k, e] => if e.kind = .equal then some k.value else none
  | _ :: e :: v :: ts => openKey? (e :: v :: ts)
  | _ => none

theorem openKey?_concat (ts : List Token) (t : Token) :
    openKey? (ts ++ [t]) = if t.kind = .equal then ts.getLast?.map Token.value else none := by
  match ts with
  | [] => exact (ite_self none).symm
  | [k] => rfl
  | [_, e] => exact openKey?_concat [e] t
  | _ :: e :: v :: ts => exact openKey?_concat (e :: v :: ts) t

theorem assignmentsIn_concat (ts : List Token) (t : Token) :
    assignmentsIn (ts ++ [t]) =
      assignmentsIn ts ++ ((openKey? ts).map fun key => ⟨key, t.value, t.pos⟩).toList := by
  match ts with
  | [] => rfl
  | [k] => rfl
  | [k, e] =>
    show (if e.kind = .equal then _ else _) ++ [] = [] ++ (Option.map _ (ite _ _ _)).toList
    split <;> rfl
  | k :: e :: v :: ts =>
    have ih := assignmentsIn_concat (e :: v :: ts) t
    show _ ++ assignmentsIn (e :: v :: ts ++ [t]) = _ ++ assignmentsIn (e :: v :: ts) ++ _
    rw [ih, List.append_assoc]
    rfl

/-- More tokens have more assignments behind those that there are. -/
theorem assignmentsIn_prefix (ts more : List Token) :
    assignmentsIn ts <+: assignmentsIn (ts ++ more) := by
  induction more generalizing ts with
  | nil => exact ⟨[], by rw [List.append_nil, List.append_nil]⟩
  | cons t more ih =>
    have first : assignmentsIn ts <+: assignmentsIn (ts ++ [t]) := by
      rw [assignmentsIn_concat]
      exact List.prefix_append _ _
    rw [List.append_cons]
    exact first.trans (ih (ts ++ [t]))

/-! ### Whether a text converts -/

section

variable {o : Owner} {key text : String} {m : Mismatch}

theorem exists_set_of_mismatch?_eq_none (h : o.mismatch? key text = none) (a : Attributes o) :
    ∃ b, a.set key text = .ok b := by
  obtain ⟨b, hb⟩ := Owner.mismatch?_eq_none_iff.1 h
  exact Attributes.exists_set hb a

theorem set_of_mismatch?_eq_some (h : o.mismatch? key text = some m) (a : Attributes o) :
    a.set key text = .error ⟨key, text, m⟩ := by
  rw [Owner.mismatch?] at h
  cases ht : o.typeOf? key with
  | none =>
    rw [ht] at h
    cases h
  | some t =>
    rw [ht] at h
    rcases Attributes.set_of_known ht a text with ⟨v, -, hv, -⟩ | ⟨m', hm, hset⟩
    · simp [hv] at h
    · simp only [hm, Option.some.injEq] at h
      rwa [h] at hset

/-- Only numbers and flags can be missed. -/
theorem exists_misses (h : o.mismatch? key text = some m) :
    ∃ expected, (Conversion.mk o key text).Misses m expected := by
  rw [Owner.mismatch?] at h
  cases ht : o.typeOf? key with
  | none =>
    rw [ht] at h
    cases h
  | some t =>
    rw [ht] at h
    cases t with
    | number =>
      cases hx : Number.ofText? text with
      | none =>
        simp only [ValueType.read, hx, Option.some.injEq] at h
        subst h
        exact ⟨_, .number ht hx⟩
      | some x => simp [ValueType.read, hx] at h
    | flag =>
      by_cases htrue : text ∈ trueTexts
      · simp [ValueType.read, htrue] at h
      by_cases hfalse : text ∈ falseTexts
      · simp [ValueType.read, htrue, hfalse] at h
      have bad : text ∉ trueTexts ++ falseTexts := mt List.mem_append.1 (not_or.2 ⟨htrue, hfalse⟩)
      simp only [ValueType.read, List.contains_iff_mem, htrue, hfalse, if_false,
        Option.some.injEq] at h
      subst h
      exact ⟨_, .flag ht bad⟩
    | _ => cases h

/-- The diagnostic of a text that misses, word for word. -/
theorem Conversion.Misses.diagnostic {c : Conversion} {expected : String}
    (h : c.Misses m expected) (pos : Position) :
    ParseError.diagnostic ⟨.badValue ⟨c.key, c.text, m⟩, pos⟩ =
      ⟨"invalid value \"" ++ c.text ++ "\" for attribute \"" ++ c.key ++ "\": expected " ++ expected,
        pos.line, pos.col⟩ := by
  have article (kind : String) : "\": expected a " ++ kind = "\": expected " ++ ("a " ++ kind) := by
    rw [← String.append_assoc]
    rfl
  obtain rfl : expected = "a " ++ m.expected := by cases h <;> rfl
  rw [String.append_assoc, ← article, ← String.append_assoc]
  rfl

theorem Owner.pair_conversions (o : Owner) (entries : List Entry) :
    (o.conversions (entries.map Entry.pair)).map Conversion.pair = entries.map Entry.pair := by
  rw [Owner.conversions, List.map_map]
  exact List.map_id _

theorem Owner.conversions_succeed {entries : List Entry}
    (h : ∀ e ∈ entries, o.mismatch? e.key e.text = none) :
    ∀ c ∈ o.conversions (entries.map Entry.pair), c.Succeeds := by
  rw [Owner.conversions, List.map_map]
  exact List.forall_mem_map.2 fun e he => exists_set_of_mismatch?_eq_none (h e he)

end

/-! ### What has been read -/

/-- The assignments among the tokens are those that have been converted, with success, and the
    entries behind them. -/
structure Accounts (ts : List Token) (converted : List Conversion) (entries : List Entry) :
    Prop where
  assignments : ∃ done, assignmentsIn ts = done ++ entries ∧
    done.map Entry.pair = converted.map Conversion.pair
  succeeds : ∀ c ∈ converted, c.Succeeds

namespace Accounts

variable {ts : List Token} {t : Token} {converted : List Conversion} {entries : List Entry}

/-- A token that is no text of an assignment. -/
theorem other (h : Accounts ts converted entries) (hkey : openKey? ts = none) (t : Token) :
    Accounts (ts ++ [t]) converted entries := by
  obtain ⟨done, hdone, hpairs⟩ := h.assignments
  refine ⟨⟨done, ?_, hpairs⟩, h.succeeds⟩
  rw [assignmentsIn_concat, hkey, hdone]
  exact List.append_nil _

/-- A token that is the text of an assignment. -/
theorem value (h : Accounts ts converted entries) {key : String} (hkey : openKey? ts = some key)
    (t : Token) : Accounts (ts ++ [t]) converted (entries ++ [⟨key, t.value, t.pos⟩]) := by
  obtain ⟨done, hdone, hpairs⟩ := h.assignments
  refine ⟨⟨done, ?_, hpairs⟩, h.succeeds⟩
  rw [assignmentsIn_concat, hkey, hdone, List.append_assoc]
  rfl

/-- The entries are converted. -/
theorem convert (h : Accounts ts converted entries) {o : Owner}
    (hentries : ∀ e ∈ entries, o.mismatch? e.key e.text = none) :
    Accounts ts (converted ++ o.conversions (entries.map Entry.pair)) [] := by
  obtain ⟨done, hdone, hpairs⟩ := h.assignments
  refine ⟨⟨done ++ entries, by rw [List.append_nil, hdone], ?_⟩, ?_⟩
  · rw [List.map_append, hpairs, List.map_append, o.pair_conversions]
  · exact List.forall_mem_append.2 ⟨h.succeeds, Owner.conversions_succeed hentries⟩

end Accounts

/-- The assignments before open braces, the innermost of which stand first. -/
def conversionsBefore : List OpenBrace → List Conversion
  | [] => []
  | b :: braces => conversionsBefore braces ++ conversionsAll (!braces.isEmpty) b.before.reverse ++
      conversionsEnds b.chain.reverse

/-- The endpoints of an edge, the latest first. -/
def Subject.chain : Subject → List Endpoint
  | edge chain => chain
  | _ => []

namespace Part

/-- The endpoints that have been read of a statement, the latest first. -/
def chain : Part → List Endpoint
  | operator ends => ends
  | name ends _ => ends
  | subgraphName ends _ => ends
  | colon ends _ => ends
  | port ends _ _ => ends
  | portColon ends _ _ => ends
  | compass ends _ _ => ends
  | endpoint ends => ends
  | list subject _ => subject.chain
  | key subject _ _ => subject.chain
  | equals subject _ _ => subject.chain
  | entry subject _ => subject.chain
  | lists subject _ => subject.chain
  | _ => []

/-- The assignments that have been read of a statement. -/
def entries : Part → List Entry
  | assigned e => [e]
  | list _ es => es.reverse
  | key _ es _ => es.reverse
  | equals _ es _ => es.reverse
  | entry _ es => es.reverse
  | lists _ es => es.reverse
  | _ => []

/-- The key that the next text is assigned to. -/
def openKey? : Part → Option String
  | assign k => some k
  | equals _ _ k => some k
  | _ => none

/-- The word that is a key in front of an equals sign. -/
def word? : Part → Option String
  | name _ w => some w.value
  | key _ _ k => some k
  | _ => none

variable {part : Part} {ends : List Endpoint} {subject : Subject} {es : List Entry}

theorem of_endpoints? (h : part.endpoints? = some ends) :
    conversionsEnds part.chain.reverse = conversionsEnds ends.reverse ∧ part.entries = [] ∧
      part.openKey? = none := by
  have node : ∀ (ref : NodeRef) (chain : List Endpoint),
      conversionsEnds (Endpoint.node ref :: chain).reverse = conversionsEnds chain.reverse := by
    intro ref chain
    rw [List.reverse_cons, conversionsEnds_concat, Endpoint.conversions, List.append_nil]
  unfold endpoints? at h
  split at h
  · cases h
    exact ⟨(node _ _).symm, rfl, rfl⟩
  · cases h
    exact ⟨(node _ _).symm, rfl, rfl⟩
  · cases h
    exact ⟨(node _ _).symm, rfl, rfl⟩
  · cases h
    exact ⟨rfl, rfl, rfl⟩
  · cases h

theorem of_list? (h : part.list? = some (subject, es)) :
    part.chain = subject.chain ∧ part.entries = es.reverse ∧ part.openKey? = none := by
  unfold list? at h
  split at h
  · cases h
    exact ⟨rfl, rfl, rfl⟩
  · cases h
    exact ⟨rfl, rfl, rfl⟩
  · cases h

theorem of_inList? (h : part.inList? = some (subject, es)) :
    part.chain = subject.chain ∧ part.entries = es.reverse ∧ part.openKey? = none := by
  unfold inList? at h
  split at h
  · cases h
    exact ⟨rfl, rfl, rfl⟩
  · cases h
    exact ⟨rfl, rfl, rfl⟩
  · cases h

end Part

theorem Stmt.conversions_ofChain (nested : Bool) (chain : List Endpoint) :
    (Stmt.ofChain chain).conversions nested = conversionsEnds chain.reverse := by
  unfold ofChain
  split
  · rfl
  · exact (List.append_nil _).symm
  · exact List.append_nil _

theorem Subject.conversions_stmt (subject : Subject) (nested : Bool) (pairs : Assignments) :
    (subject.stmt pairs).conversions nested =
      conversionsEnds subject.chain.reverse ++ (subject.owner nested).conversions pairs := by
  cases subject with
  | attributes target => cases target <;> rfl
  | node ref => rfl
  | edge chain => rfl

namespace Reading

variable {r r' : Reading} {ts : List Token} {t : Token} {chain : List Endpoint}
  {subject : Subject} {entries : List Entry}

/-- The assignments of the statements that are finished, up to the endpoints before open
    braces. -/
def finished (r : Reading) : List Conversion :=
  conversionsBefore r.braces ++ conversionsAll (!r.braces.isEmpty) r.stmts.reverse

/-- The assignments whose lists have been read. -/
def converted (r : Reading) : List Conversion := r.finished ++ conversionsEnds r.part.chain.reverse

theorem finished_finish (r : Reading) (s : Stmt) :
    (r.finish s).finished = r.finished ++ s.conversions !r.braces.isEmpty := by
  show conversionsBefore r.braces ++ conversionsAll _ (s :: r.stmts).reverse = _
  rw [List.reverse_cons, conversionsAll_concat, ← List.append_assoc]
  rfl

/-- All assignments among the tokens are accounted for, and the reading knows their last words
    where it needs them. -/
structure Accounted (r : Reading) (ts : List Token) : Prop where
  accounts : Accounts ts r.converted r.part.entries
  openKey : openKey? ts = r.part.openKey?
  word : ∀ w, r.part.word? = some w → ts.getLast?.map Token.value = some w

theorem Accounted.of_part {part : Part} (ha : r.Accounted ts) (hpart : r.part = part) :
    Accounts ts (r.finished ++ conversionsEnds part.chain.reverse) part.entries ∧
      openKey? ts = part.openKey? := by
  subst hpart
  exact ⟨ha.accounts, ha.openKey⟩

theorem Accounted.of_endpoints? (ha : r.Accounted ts) (h : r.part.endpoints? = some chain) :
    Accounts ts (r.finished ++ conversionsEnds chain.reverse) [] ∧ openKey? ts = none := by
  obtain ⟨accounts, hkey⟩ := ha.of_part rfl
  obtain ⟨hchain, hentries, hnone⟩ := Part.of_endpoints? h
  rw [hchain, hentries] at accounts
  exact ⟨accounts, hkey.trans hnone⟩

theorem Accounted.of_list? (ha : r.Accounted ts)
    (h : r.part.list? = some (subject, entries) ∨ r.part.inList? = some (subject, entries)) :
    Accounts ts (r.finished ++ conversionsEnds subject.chain.reverse) entries.reverse ∧
      openKey? ts = none := by
  obtain ⟨accounts, hkey⟩ := ha.of_part rfl
  obtain ⟨hchain, hentries, hnone⟩ := h.elim Part.of_list? Part.of_inList?
  rw [hchain, hentries] at accounts
  exact ⟨accounts, hkey.trans hnone⟩

/-- Where a statement may end, the assignments of the statements that are finished with it are
    all that there are. -/
theorem Accounted.ends (ha : r.Accounted ts) (h : r.Ends r') :
    Accounts ts r'.finished [] ∧ openKey? ts = none := by
  cases h with
  | nothing hpart =>
    obtain ⟨accounts, hkey⟩ := ha.of_part hpart
    exact ⟨List.append_nil r.finished ▸ accounts, hkey⟩
  | chain hpart =>
    rw [finished_finish, Stmt.conversions_ofChain]
    exact ha.of_endpoints? hpart
  | list hpart hnone =>
    obtain ⟨accounts, hkey⟩ := ha.of_list? (.inl hpart)
    rw [finished_finish, Subject.conversions_stmt, ← List.append_assoc]
    refine ⟨accounts.convert fun e he => ?_, hkey⟩
    exact Option.map_eq_none_iff.1 (List.findSome?_eq_none_iff.1 hnone e he)

theorem Accounted.awaits (ha : r.Accounted ts) (h : r.Awaits r' chain) :
    Accounts ts (r'.finished ++ conversionsEnds chain.reverse) [] ∧ openKey? ts = none := by
  cases h with
  | statement h =>
    rw [List.reverse_nil, conversionsEnds, List.append_nil]
    exact ha.ends h
  | endpoint hpart => exact ha.of_part hpart

theorem Accounted.opens {name : String} (ha : r.Accounted ts) (h : r.Opens r' chain name) :
    Accounts ts (r'.finished ++ conversionsEnds chain.reverse) [] ∧ openKey? ts = none := by
  cases h with
  | anonymous h => exact ha.awaits h
  | keyword hpart => exact ha.of_part hpart
  | named hpart => exact ha.of_part hpart

theorem Accounted.lists (ha : r.Accounted ts) (h : r.Lists subject entries) :
    Accounts ts (r.finished ++ conversionsEnds subject.chain.reverse) entries.reverse ∧
      openKey? ts = none := by
  cases h with
  | target hpart => exact ha.of_part hpart
  | node hpart =>
    have accounted := ha.of_endpoints? hpart
    exact accounted
  | edge hpart => exact ha.of_endpoints? hpart
  | more hpart => exact ha.of_part hpart

end Reading

/-- All assignments among the tokens are accounted for in what has been read. -/
def Progress.Accounted (ts : List Token) : Progress → Prop
  | body r => r.Accounted ts
  | closed document _ => Accounts ts document.conversions []
  | _ => Accounts ts [] [] ∧ openKey? ts = none

namespace Reading

variable {r : Reading} {ts : List Token} {t : Token} {q : Progress}

theorem accounted_go {part : Part}
    (accounts :
      Accounts (ts ++ [t]) (r.finished ++ conversionsEnds part.chain.reverse) part.entries)
    (hkey : openKey? (ts ++ [t]) = part.openKey?)
    (hword : part.word? = none ∨ part.word? = some t.value) :
    ({ r with part := part } : Reading).Accounted (ts ++ [t]) := by
  refine ⟨accounts, hkey, fun w hw => ?_⟩
  rw [List.getLast?_concat, Option.map_some]
  rcases hword with hword | hword
  · rw [hw] at hword
    cases hword
  · exact hword.symm.trans hw

/-- The statements inside of braces go into an endpoint that stands where the braces opened. -/
theorem accounted_closeBrace (accounts : Accounts (ts ++ [t]) r.finished [])
    (hkey : openKey? (ts ++ [t]) = none) : r.closeBrace.Accounted (ts ++ [t]) := by
  unfold finished at accounts
  unfold closeBrace
  split
  · next hbraces =>
    rw [hbraces] at accounts
    exact accounts
  · next b braces hbraces =>
    rw [hbraces] at accounts
    refine ⟨?_, hkey, nofun⟩
    show Accounts (ts ++ [t]) (_ ++ conversionsEnds (Endpoint.subgraph _ _ :: b.chain).reverse) []
    rw [List.reverse_cons, conversionsEnds_concat, ← List.append_assoc]
    exact accounts

/-- No statement is finished inside of braces that open. -/
theorem accounted_openBrace {chain : List Endpoint} (name : String)
    (accounts : Accounts (ts ++ [t]) (r.finished ++ conversionsEnds chain.reverse) [])
    (hkey : openKey? (ts ++ [t]) = none) :
    ({ r with braces := ⟨name, chain, r.stmts⟩ :: r.braces, stmts := [], part := .nothing } :
      Reading).Accounted (ts ++ [t]) := by
  refine ⟨?_, hkey, nofun⟩
  show Accounts (ts ++ [t]) (conversionsBefore (_ :: _) ++ [] ++ []) []
  rw [List.append_nil, List.append_nil]
  exact accounts

/-- A token is the text of an assignment, or the assignments are as before. -/
theorem Accounted.moves (ha : r.Accounted ts) (h : r.Moves t q) : q.Accounted (ts ++ [t]) := by
  have closed_of : ∀ {k}, t.kind = k → k ≠ .equal → openKey? (ts ++ [t]) = none := by
    rintro k rfl ht
    rw [openKey?_concat, if_neg ht]
  have closed_of_id : t.isId → openKey? (ts ++ [t]) = none := fun hid =>
    closed_of rfl (Lexeme.kind_ne_of_isId (l := t.lexeme) hid rfl)
  have open_of : ∀ w, t.kind = .equal → r.part.word? = some w → openKey? (ts ++ [t]) = some w := by
    intro w ht hw
    rw [openKey?_concat, if_pos ht, ha.word w hw]
  cases h with
  | semicolon h hk =>
    obtain ⟨accounts, hkey⟩ := ha.ends h
    exact accounted_go ((List.append_nil _).symm ▸ accounts.other hkey t)
      (closed_of hk (by decide)) (.inl rfl)
  | rightBrace h hk =>
    obtain ⟨accounts, hkey⟩ := ha.ends h
    exact accounted_closeBrace (accounts.other hkey t) (closed_of hk (by decide))
  | leftBrace h hk =>
    obtain ⟨accounts, hkey⟩ := ha.opens h
    exact accounted_openBrace _ (accounts.other hkey t) (closed_of hk (by decide))
  | word h hid =>
    obtain ⟨accounts, hkey⟩ := ha.awaits h
    exact accounted_go (accounts.other hkey t) (closed_of_id hid) (.inr rfl)
  | subgraphName hpart hn =>
    obtain ⟨accounts, hkey⟩ := ha.of_part hpart
    have closed : openKey? (ts ++ [t]) = none :=
      closed_of rfl fun hk => by simp [Token.isName, hk] at hn
    exact accounted_go (accounts.other hkey t) closed (.inl rfl)
  | colon hpart hk =>
    obtain ⟨accounts, hkey⟩ := ha.of_part hpart
    exact accounted_go (accounts.other hkey t) (closed_of hk (by decide)) (.inl rfl)
  | port hpart hid =>
    obtain ⟨accounts, hkey⟩ := ha.of_part hpart
    exact accounted_go (accounts.other hkey t) (closed_of_id hid) (.inl rfl)
  | portColon hpart hk =>
    obtain ⟨accounts, hkey⟩ := ha.of_part hpart
    exact accounted_go (accounts.other hkey t) (closed_of hk (by decide)) (.inl rfl)
  | compass hpart hid =>
    obtain ⟨accounts, hkey⟩ := ha.of_part hpart
    exact accounted_go (accounts.other hkey t) (closed_of_id hid) (.inl rfl)
  | edgeOp hpart hk =>
    obtain ⟨accounts, hkey⟩ := ha.of_endpoints? hpart
    exact accounted_go (accounts.other hkey t) (closed_of hk (by decide)) (.inl rfl)
  | assign hpart hk =>
    obtain ⟨accounts, hkey⟩ := ha.of_part hpart
    exact accounted_go (accounts.other hkey t) (open_of _ hk (by rw [hpart]; rfl)) (.inl rfl)
  | assigned hpart hid =>
    obtain ⟨accounts, hkey⟩ := ha.of_part hpart
    exact accounted_go (accounts.value hkey t) (closed_of_id hid) (.inl rfl)
  | leftBracket h hk =>
    obtain ⟨accounts, hkey⟩ := ha.lists h
    exact accounted_go (accounts.other hkey t) (closed_of hk (by decide)) (.inl rfl)
  | rightBracket hpart hk =>
    obtain ⟨accounts, hkey⟩ := ha.of_list? (.inr hpart)
    exact accounted_go (accounts.other hkey t) (closed_of hk (by decide)) (.inl rfl)
  | key hpart hk =>
    obtain ⟨accounts, hkey⟩ := ha.of_list? (.inr hpart)
    have closed : openKey? (ts ++ [t]) = none :=
      hk.elim (closed_of · (by decide)) (closed_of · (by decide))
    exact accounted_go (accounts.other hkey t) closed (.inr rfl)
  | equals hpart hk =>
    obtain ⟨accounts, hkey⟩ := ha.of_part hpart
    exact accounted_go (accounts.other hkey t) (open_of _ hk (by rw [hpart]; rfl)) (.inl rfl)
  | @entry subject entries key hpart hid =>
    obtain ⟨accounts, hkey⟩ := ha.of_part hpart
    have accounts := accounts.value hkey t
    rw [Part.entries, ← List.reverse_cons] at accounts
    exact accounted_go accounts (closed_of_id hid) (.inl rfl)
  | separator hpart hk =>
    obtain ⟨accounts, hkey⟩ := ha.of_part hpart
    have closed : openKey? (ts ++ [t]) = none :=
      hk.elim (closed_of · (by decide)) (closed_of · (by decide))
    exact accounted_go (accounts.other hkey t) closed (.inl rfl)

end Reading

/-- All assignments among the tokens read are accounted for. -/
theorem Progress.Reads.accounted {ts : List Token} {p : Progress} (h : Reads ts p) :
    p.Accounted ts := by
  induction h with
  | nil => exact ⟨⟨⟨[], rfl, rfl⟩, nofun⟩, rfl⟩
  | @concat ts t p q _ hstep ih =>
    rcases step_cases hstep with ⟨hp, hq, ht⟩ | ⟨r, rfl, hmoves⟩
    · have header : Accounts ts [] [] ∧ openKey? ts = none := by
        cases p with
        | start | strict | keyword | titled => exact ih
        | body | closed => exact hp.elim
      have accounts := header.1.other header.2 t
      have hkey : openKey? (ts ++ [t]) = none := by
        rw [openKey?_concat, if_neg ht]
      rcases hq with hq | ⟨_, rfl⟩
      · cases q with
        | start | strict | keyword | titled => exact ⟨accounts, hkey⟩
        | body | closed => exact hq.elim
      · exact ⟨accounts, hkey, nofun⟩
    · exact ih.moves hmoves

/-- Where a document comes of the tokens, they all are read, and close it. -/
theorem Progress.Reads.exists_closed {done ts : List Token} {p : Progress} {stop : Position}
    {d : Document} (h : Reads done p) (hrun : (p.run stop ts).result = .ok d) :
    ∃ remarks, Reads (done ++ ts) (.closed d remarks) := by
  induction ts generalizing done p with
  | nil =>
    obtain ⟨document, remarks, rfl⟩ := exists_closed_of_finish hrun
    obtain rfl : document = d := Except.ok.inj hrun
    exact ⟨remarks, by rwa [List.append_nil]⟩
  | cons t ts ih =>
    obtain ⟨q, hq, hrun⟩ := exists_step_of_run hrun
    rw [List.append_cons]
    exact ih (h.concat hq) hrun

/-- The assignments of a document that is parsed are those among its tokens, in their order, and
    all of them succeed. -/
theorem Parsed.pair_conversions {text : String} {d : Document}
    (h : (Parsed.ofText text).result = .ok d) :
    d.conversions.map Conversion.pair =
        (assignmentsIn (Tokens.ofText text).pending).map Entry.pair ∧
      ∀ c ∈ d.conversions, c.Succeeds := by
  obtain ⟨remarks, hreads⟩ := Progress.Reads.nil.exists_closed h
  obtain ⟨⟨done, hdone, hpairs⟩, succeeds⟩ := hreads.accounted
  rw [List.nil_append, List.append_nil] at hdone
  exact ⟨by rw [hdone, hpairs], succeeds⟩

/-! ### What is still to be read -/

section

variable {ok : Owner → Assignments → Prop} {d : Document} {ls : List Lexeme}

/-- Endpoints that have been read are the first ones of their statement. -/
theorem exists_rest_of_finishesEnds {rest : Stmt → List Lexeme → Prop} {ends : List Endpoint}
    (h : FinishesEnds ok rest ends ls) :
    ∃ s ms, rest s ms ∧ ∀ nested, conversionsEnds ends <+: s.conversions nested := by
  unfold FinishesEnds at h
  split at h
  · obtain ⟨pairs, ms, -, -, hrest⟩ := h
    exact ⟨_, ms, hrest, fun _ => List.nil_prefix⟩
  · refine ⟨_, _, h, fun nested => ?_⟩
    rw [conversionsEnds, conversionsEnds, List.append_nil]
    exact List.prefix_refl _
  · obtain ⟨pairs, ms, -, -, hrest⟩ := h
    exact ⟨_, ms, hrest, fun _ => List.prefix_append _ _⟩

/-- The assignments that have been read are the first ones of the document. -/
theorem Closes.prefix_conversions {header : Header} {braces : List OpenBrace} {stmts : List Stmt}
    (h : Closes ok header d braces stmts ls) :
    conversionsBefore braces ++ conversionsAll (!braces.isEmpty) stmts.reverse <+:
      d.conversions := by
  induction braces generalizing stmts ls with
  | nil =>
    obtain ⟨body, c, -, -, -, rfl⟩ := h
    show conversionsAll false stmts.reverse <+: conversionsAll false (stmts.reverse ++ body)
    rw [conversionsAll_append]
    exact List.prefix_append _ _
  | cons b braces ih =>
    obtain ⟨body, c, ms, -, -, -, ends, ms', -, -, hends⟩ := h
    obtain ⟨s, ms, hrest, hs⟩ := exists_rest_of_finishesEnds hends
    have outer := ih hrest
    have inner := hs !braces.isEmpty
    -- The braces are an endpoint of the statement that they stand in.
    rw [List.reverse_cons, List.append_assoc, conversionsEnds_append, List.singleton_append,
      conversionsEnds, Endpoint.conversions, conversionsAll_append, List.append_assoc,
      ← List.append_assoc] at inner
    rw [List.reverse_cons, conversionsAll_concat, ← List.append_assoc] at outer
    have read := (List.prefix_append _ _).trans inner
    refine List.IsPrefix.trans ?_ outer
    rw [conversionsBefore, List.append_assoc]
    exact List.prefix_append_right_inj _ |>.2 read

/-- So are those of a list behind which the statement may end. -/
theorem Reading.prefix_conversions {r : Reading} {subject : Subject} {entries : List Entry}
    (h : r.part.list? = some (subject, entries)) (hc : r.Completes ok d ls) :
    r.finished ++ conversionsEnds subject.chain.reverse ++
      (subject.owner !r.braces.isEmpty).conversions (Entry.assignments entries) <+:
        d.conversions := by
  have exists_rest : ∃ more ms,
      r.Rest ok d (subject.stmt (Entry.assignments entries ++ more)) ms := by
    unfold Part.list? at h
    split at h
    · next e hpart =>
      cases h
      rw [Completes, hpart] at hc
      exact ⟨[], ls, hc.2⟩
    · next hpart =>
      cases h
      rw [Completes, hpart] at hc
      obtain ⟨more, ms, -, -, hrest⟩ := hc
      exact ⟨more, ms, hrest⟩
    · cases h
  obtain ⟨more, ms, hrest⟩ := exists_rest
  have read := Closes.prefix_conversions hrest
  rw [List.reverse_cons, conversionsAll_concat, Subject.conversions_stmt, Owner.conversions_append,
    ← List.append_assoc, ← List.append_assoc, ← List.append_assoc] at read
  exact (List.prefix_append _ _).trans read

end

/-! ### The error of a sentence -/

/-- The lexemes behind the tokens that are read complete what has been read. -/
theorem Tokens.StopsAt.completes {ts : Tokens} {before after : List Token} {t : Token}
    {p : Progress} {s : Stuck} {d : Document} (h : ts.StopsAt before t after p s)
    (hd : Sentence ts.lexemes d) : ∃ ls, p.Completes anyText d ls := by
  obtain ⟨more, hmore⟩ := h.prefix_pending
  obtain ⟨-, completes⟩ := h.reads.completes_iff
  refine ⟨more.map Token.lexeme, (completes d _).2 ?_⟩
  rwa [← List.map_append, hmore]

/-- Where the tokens of a text are a sentence, all of them are possible where they stand. -/
theorem Tokens.StopsAt.viable {ts : Tokens} {before after : List Token} {t : Token}
    {p : Progress} {s : Stuck} {d : Document} (h : ts.StopsAt before t after p s)
    (hd : Sentence ts.lexemes d) : Viable ((before ++ [t]).map Token.lexeme) := by
  refine ⟨d, ts.lexemes, hd, ?_⟩
  have whole : ts.lexemes ++ [⟨.endOfInput, ""⟩] = ts.toList.map Token.lexeme := by
    rw [Tokens.toList, List.map_append]
    rfl
  rw [whole, h.toList, List.append_cons before t after]
  exact (List.prefix_append (before ++ [t]) after).map Token.lexeme

/-- So reading stops at them only because of a text, behind the list that it is in. -/
theorem Tokens.StopsAt.exists_list {ts : Tokens} {before after : List Token} {t : Token}
    {p : Progress} {s : Stuck} {d : Document} (h : ts.StopsAt before t after p s)
    (hts : ∀ t ∈ ts.pending, t.kind ≠ .endOfInput) (hd : Sentence ts.lexemes d) :
    ∃ r subject entries, p = .body r ∧ r.part.list? = some (subject, entries) ∧
      Entry.firstError? (subject.owner !r.braces.isEmpty) entries.reverse = some s.error := by
  have hvalue : ∃ error, s.error.fault = .badValue error := by
    by_contra hne
    exact h.not_viable hts (fun error he => hne ⟨error, he⟩) (h.viable hd)
  obtain ⟨error, hvalue⟩ := hvalue
  have not_atToken : ∀ expected, s.error ≠ .atToken expected t := by
    intro expected he
    rw [he] at hvalue
    rcases ParseError.fault_atToken expected t with hat | hat <;> rw [hat] at hvalue
    all_goals cases hvalue
  rcases Progress.stops_of_step h.step with ⟨expected, he⟩ | ⟨r, rfl, hstops⟩
  · exact absurd he (not_atToken expected)
  generalize s.error = e at hstops hvalue not_atToken
  cases hstops with
  | unexpected expected => exact absurd rfl (not_atToken expected)
  | assignedPort => cases hvalue
  | badValue hpart hfirst => exact ⟨r, _, _, rfl, hpart, hfirst⟩

/-- A text that is a sentence of the grammar, but has no graph, has an assignment whose text is
    no value of its key. The error is that of the first of them in the order of the text, and at
    the place of its text: all assignments before it succeed. The message names the text, the key
    and what was expected. -/
theorem Graph.first_bad_value {text : String} {d : Document} {e : ParseError}
    (hd : Sentence (Tokens.ofText text).lexemes d) (h : Graph.ofText text = .error e) :
    ∃ first bad later before after m expected, d.conversions = first ++ bad :: later ∧
      assignmentsIn (Tokens.ofText text).pending =
        before ++ ⟨bad.key, bad.text, e.pos⟩ :: after ∧
      before.map Entry.pair = first.map Conversion.pair ∧ (∀ c ∈ first, c.Succeeds) ∧
      (∀ a : Attributes bad.owner, a.set bad.key bad.text = .error ⟨bad.key, bad.text, m⟩) ∧
      e.fault = .badValue ⟨bad.key, bad.text, m⟩ ∧ bad.Misses m expected ∧
      e.diagnostic = ⟨"invalid value \"" ++ bad.text ++ "\" for attribute \"" ++ bad.key ++
        "\": expected " ++ expected, e.pos.line, e.pos.col⟩ := by
  obtain ⟨before, t, after, p, s, hstop, rfl⟩ := exists_stop h
  obtain ⟨r, subject, entries, rfl, hpart, hfirst⟩ :=
    hstop.exists_list (Cursor.kind_ne_endOfInput _) hd
  obtain ⟨pre, entry, post, m, hentries, hpre, hentry, he⟩ :=
    Reading.exists_of_firstError? hfirst
  obtain ⟨accounts, -⟩ := hstop.reads.accounted.of_list? (.inl hpart)
  obtain ⟨done, hdone, hpairs⟩ := accounts.assignments
  obtain ⟨ls, hc⟩ := hstop.completes hd
  obtain ⟨later, hlater⟩ := Reading.prefix_conversions hpart hc
  obtain ⟨more, hmore⟩ := hstop.prefix_pending
  obtain ⟨after, hafter⟩ := assignmentsIn_prefix before more
  let converted := r.finished ++ conversionsEnds subject.chain.reverse
  let o := subject.owner !r.braces.isEmpty
  have read : o.conversions (Entry.assignments entries) = o.conversions (pre.map Entry.pair) ++
      ⟨o, entry.key, entry.text⟩ :: o.conversions (post.map Entry.pair) := by
    have pairs : Entry.assignments entries = entries.reverse.map Entry.pair := rfl
    rw [pairs, hentries, List.map_append, Owner.conversions_append]
    rfl
  obtain ⟨expected, misses⟩ := exists_misses hentry
  rw [he]
  refine ⟨converted ++ o.conversions (pre.map Entry.pair), ⟨o, entry.key, entry.text⟩,
    o.conversions (post.map Entry.pair) ++ later, done ++ pre, post ++ after, m, expected,
    ?_, ?_, ?_, ?_, set_of_mismatch?_eq_some hentry, rfl, misses, misses.diagnostic entry.pos⟩
  · rw [← hlater, read]
    simp only [converted, List.append_assoc, List.cons_append]
  · rw [← hmore, ← hafter, hdone, hentries]
    simp only [List.append_assoc, List.cons_append]
  · rw [List.map_append, List.map_append, hpairs, o.pair_conversions]
  · exact List.forall_mem_append.2 ⟨accounts.succeeds, Owner.conversions_succeed hpre⟩

/-- Of two texts that are no numbers the first is reported, inside of braces. -/
theorem Graph.braces_first_bad : ∃ d e first bad later before after,
    Sentence (Tokens.ofText "graph\x7bfontsize=1;\x7bfontsize=x\x7dnodesep=y\x7d").lexemes d ∧
      Graph.ofText "graph\x7bfontsize=1;\x7bfontsize=x\x7dnodesep=y\x7d" = .error e ∧
      d.conversions = first ++ bad :: later ∧ (∀ c ∈ first, c.Succeeds) ∧
      bad.key = "fontsize" ∧ bad.text = "x" ∧ bad.Misses .number "a number" ∧
      assignmentsIn (Tokens.ofText "graph\x7bfontsize=1;\x7bfontsize=x\x7dnodesep=y\x7d").pending =
        before ++ ⟨"fontsize", "x", ⟨1, 28⟩⟩ :: after ∧
      e.diagnostic =
        ⟨"invalid value \"x\" for attribute \"fontsize\": expected a number", 1, 28⟩ := by
  have lexemes : (Tokens.ofText "graph\x7bfontsize=1;\x7bfontsize=x\x7dnodesep=y\x7d").lexemes =
      [⟨.identifier, "graph"⟩, ⟨.leftBrace, "\x7b"⟩, ⟨.identifier, "fontsize"⟩, ⟨.equal, "="⟩,
        ⟨.number, "1"⟩, ⟨.semicolon, ";"⟩, ⟨.leftBrace, "\x7b"⟩, ⟨.identifier, "fontsize"⟩,
        ⟨.equal, "="⟩, ⟨.identifier, "x"⟩, ⟨.rightBrace, "\x7d"⟩, ⟨.identifier, "nodesep"⟩,
        ⟨.equal, "="⟩, ⟨.identifier, "y"⟩, ⟨.rightBrace, "\x7d"⟩] := by
    decide +kernel
  have sentence : ∃ d, Sentence
      (Tokens.ofText "graph\x7bfontsize=1;\x7bfontsize=x\x7dnodesep=y\x7d").lexemes d := by
    rw [lexemes]
    exact ⟨_, .mk (.absent _) (.graph _ rfl) (.absent _) rfl
      (.cons (.assign _ rfl rfl rfl) (.semicolon rfl
        (.cons (.subgraph (.anonymous rfl (.cons (.assign _ rfl rfl rfl) (.nil _)) rfl))
          (.cons (.assign _ rfl rfl rfl) (.nil _))))) rfl⟩
  obtain ⟨d, hd⟩ := sentence
  obtain ⟨e, he, hfault, hpos⟩ :=
    exists_error "graph\x7bfontsize=1;\x7bfontsize=x\x7dnodesep=y\x7d"
      (P := fun e => e.fault = .badValue ⟨"fontsize", "x", .number⟩ ∧ e.pos = ⟨1, 28⟩)
      (by decide +kernel)
  obtain ⟨first, ⟨o, key, value⟩, later, before, after, m, expected, hfirst, hbefore, -, hsucceeds,
    -, hbad, misses, hdiagnostic⟩ := first_bad_value hd he
  obtain ⟨rfl, rfl, rfl⟩ := AttributeError.mk.inj (Fault.badValue.inj (hbad.symm.trans hfault))
  obtain rfl : expected = "a number" := by
    cases misses
    rfl
  rw [hpos] at hbefore hdiagnostic
  have message : "invalid value \"" ++ "x" ++ "\" for attribute \"" ++ "fontsize" ++
      "\": expected " ++ "a number" =
        "invalid value \"x\" for attribute \"fontsize\": expected a number" := by decide
  rw [message] at hdiagnostic
  exact ⟨d, e, first, _, later, before, after, hd, he, hfirst, hsucceeds, rfl, rfl, misses,
    hbefore, hdiagnostic⟩

end DotLang
