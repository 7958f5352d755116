import DotLang.Graph.OfText
import DotLang.Proofs.Syntax.Completion

/-!
# What is parsed

Parsing accepts the sentences of the grammar whose texts pass the check, and no
other tokens. The invariant is that each token that is read leaves what completes
the reading unchanged: a reading goes on with a token exactly if that token
completes it together with later ones.

* `Reading.step_agrees`, `Progress.step_agrees`: one token;
* `Progress.run_decides`: all tokens;
* `ofText_isOk_iff_sentence`: the texts that have a graph.
-/

namespace DotLang

open Grammar

variable (ok : Owner → Assignments → Prop)

/-- An error about a text that the check lets pass. -/
def BadValue (e : ParseError) : Prop :=
  ∃ (o : Owner) (entries : List Entry), Entry.firstError? o entries = some e ∧
    ok o (entries.map fun e => (e.key, e.text))

/-- The opening brace of the document is missing. -/
def CompletesBrace (header : Header) (d : Document) (ls : List Lexeme) : Prop :=
  ∃ o ms, ls = o :: ms ∧ o.kind = .leftBrace ∧ Closes ok header d [] [] ms

/-- The name of the graph may be missing. -/
def CompletesTitle (header : Header) (d : Document) (ls : List Lexeme) : Prop :=
  ∃ name ms, Title ls name ms ∧ CompletesBrace ok { header with name := name } d ms

/-- The word `graph` or `digraph` is missing. -/
def CompletesKind (strict : Bool) (d : Document) (ls : List Lexeme) : Prop :=
  ∃ directed ms, KindWord ls directed ms ∧
    CompletesTitle ok { strict := strict, directed := directed } d ms

/-- The lexemes complete what has been read to the document `d`. -/
def Progress.Completes (d : Document) (ls : List Lexeme) : Progress → Prop
  | start => ∃ strict ms, StrictMark ls strict ms ∧ CompletesKind ok strict d ms
  | strict => CompletesKind ok true d ls
  | keyword header => CompletesTitle ok header d ls
  | titled header => CompletesBrace ok header d ls
  | body r => r.Completes ok d ls
  | closed document _ => ls = [] ∧ d = document

/-- What has been read is as reading leaves it: a word that may be a keyword is an
    id, there is an endpoint where one has been read, and no name before the name. -/
def Progress.Sound : Progress → Prop
  | keyword header => header.name = none
  | body r =>
    match r.part with
    | .name _ word => word.lexeme.isId
    | .endpoint chain => chain ≠ []
    | _ => True
  | _ => True

/-- A token has been read, or not, and `P` says whether together with later lexemes
    it completes what was read before. -/
def Agrees (x : Except Stuck Progress) (d : Document) (ls : List Lexeme) (P : Prop) : Prop :=
  match x with
  | .ok q => q.Sound ∧ (q.Completes ok d ls ↔ P)
  | .error s => P → BadValue ok s.error

variable {ok}

theorem Agrees.congr {x : Except Stuck Progress} {d : Document} {ls : List Lexeme} {P Q : Prop}
    (h : Agrees ok x d ls P) (hPQ : Q ↔ P) : Agrees ok x d ls Q := by
  rwa [propext hPQ]

namespace Reading

variable {d : Document} {ls : List Lexeme}

theorem agrees_fail (r : Reading) (e : ParseError) {P : Prop} (h : ¬P) :
    Agrees ok (r.fail e) d ls P :=
  fun hP => absurd hP h

/-- Where only tokens of some kinds go on. -/
theorem agrees_expect (r : Reading) {c : Prop} [Decidable c] {q : Progress} {e : ParseError}
    {Q : Prop} (hq : q.Sound) (h : q.Completes ok d ls ↔ Q) :
    Agrees ok (if c then .ok q else r.fail e) d ls (c ∧ Q) := by
  split
  · next hc => exact ⟨hq, by rw [h, and_iff_right hc]⟩
  · next hc => exact agrees_fail r e fun hP => hc hP.1

theorem agrees_first (r : Reading) (chain : List Endpoint) (expected : Expected) (t : Token) :
    Agrees ok (r.first chain expected t) d ls (r.Begins ok d chain (t.lexeme :: ls)) := by
  rw [first]
  split
  · next h => exact ⟨trivial, (begins_leftBrace h).symm⟩
  split
  · next h => exact ⟨h, Iff.rfl⟩
  · next hl hi =>
    refine agrees_fail r _ fun h => ?_
    obtain ⟨l, ms, hls, h⟩ := begins_head h
    obtain ⟨rfl, -⟩ := List.cons.inj hls
    exact h.elim hl hi

theorem agrees_between (r : Reading) (t : Token) :
    Agrees ok (r.between t) d ls (Closes ok r.header d r.braces r.stmts (t.lexeme :: ls)) := by
  rw [between]
  split
  · next h => exact ⟨trivial, (closes_semicolon h).symm⟩
  split
  · next h =>
    -- The brace ends the document, or an endpoint of the statement before it.
    rw [closeBrace]
    split
    · next hb =>
      refine ⟨trivial, ?_⟩
      rw [hb]
      exact (closes_rightBrace_nil h).symm
    · next b braces hb =>
      refine ⟨List.cons_ne_nil _ _, ?_⟩
      rw [hb]
      exact (closes_rightBrace_cons h).symm
  · next hs hr =>
    refine (agrees_first r [] .statement t).congr ?_
    rw [Begins, if_pos rfl]
    exact closes_statement hs hr

/-- The word of a target starts a statement of attributes in front of a bracket. -/
theorem target?_eq_some_iff {word : Token} {target : Target} :
    target? word = some target ↔ word.lexeme.isKeyword target.keyword := by
  have key : ∀ w, word.isKeyword w = word.lexeme.isKeyword w := fun _ => rfl
  rw [target?]
  simp only [key, Lexeme.isKeyword, Bool.and_eq_true, decide_eq_true_eq]
  constructor
  · intro h
    split at h
    · next hk => cases h; exact hk
    · split at h
      · next hk => cases h; exact hk
      · split at h
        · next hk => cases h; exact hk
        · cases h
  · rintro ⟨hk, hv⟩
    cases target <;> simp [hk, hv, Target.keyword]

/-- Attributes of a target stand in brackets after its keyword. -/
theorem begins_attributes (r : Reading) {w o : Lexeme} {target : Target}
    (hw : w.isKeyword target.keyword) (ho : o.kind = .leftBracket) :
    r.Begins ok d [] (w :: o :: ls) ↔ r.FinishesLists ok d (.attributes target) [] (o :: ls) := by
  rw [begins_nil]
  constructor
  · rintro (⟨w', o', ms, target', hls, hk, -, h⟩ | ⟨k, e, v, ms, hls, -, he, -⟩ | ⟨ha, -⟩)
    · obtain ⟨rfl, htail⟩ := List.cons.inj hls
      obtain ⟨rfl, rfl⟩ := List.cons.inj htail
      obtain rfl : target = target' := by
        simp only [Lexeme.isKeyword, Bool.and_eq_true, decide_eq_true_eq] at hw hk
        have : target.keyword = target'.keyword := hw.2.symm.trans hk.2
        cases target <;> cases target' <;> first | rfl | exact absurd this (by decide)
      exact h
    · obtain ⟨-, htail⟩ := List.cons.inj hls
      obtain ⟨rfl, -⟩ := List.cons.inj htail
      rw [ho] at he
      cases he
    · exact absurd ⟨⟨target, hw⟩, ho⟩ ha
  · intro h
    exact .inl ⟨w, o, ls, target, rfl, hw, ho, h⟩

section

variable (check : ∀ o entries, Entry.firstError? o entries = none →
  ok o (entries.map fun e => (e.key, e.text)))
include check

theorem agrees_afterList (r : Reading) (subject : Subject) (entries : List Entry) (t : Token) :
    Agrees ok (r.afterList subject entries t) d ls
      (ok (subject.owner !r.braces.isEmpty) (Entry.assignments entries) ∧
        r.Rest ok d (subject.stmt (Entry.assignments entries)) (t.lexeme :: ls)) := by
  rw [afterList, finishList]
  cases h : Entry.firstError? (subject.owner !r.braces.isEmpty) entries.reverse with
  | some e => exact fun hP => ⟨_, _, h, hP.1⟩
  | none =>
    refine (agrees_between (r.finish _) t).congr ?_
    exact ⟨And.right, fun hP => ⟨check _ _ h, hP⟩⟩

theorem agrees_afterSubject (r : Reading) (subject : Subject) (entries : List Entry)
    (t : Token) :
    Agrees ok (r.afterSubject subject entries t) d ls
      (r.FinishesLists ok d subject (Entry.assignments entries) (t.lexeme :: ls)) := by
  rw [afterSubject]
  split
  · next h => exact ⟨trivial, (finishesLists_leftBracket h).symm⟩
  · next h => exact (agrees_afterList check r subject entries t).congr (finishesLists_other h)

theorem agrees_afterEndpoint (r : Reading) {chain : List Endpoint} (hc : chain ≠ [])
    (t : Token) :
    Agrees ok (r.afterEndpoint chain t) d ls
      (ContinuesChain ok (r.Rest ok d) chain (t.lexeme :: ls)) := by
  unfold afterEndpoint
  split
  · next h =>
    refine ⟨trivial, ?_⟩
    rw [continuesChain_edgeOp (fun _ _ => rest_head) h]
    exact iff_of_eq (if_neg hc)
  · next h =>
    rw [continuesChain_other h]
    split
    · next ref => exact agrees_afterSubject check r (.node ref) [] t
    · next name body => exact agrees_between (r.finish _) t
    · next hnode hsub =>
      -- Neither a node alone nor a subgraph alone: there are two endpoints or more.
      refine (agrees_afterSubject check r (.edge chain) [] t).congr ?_
      obtain ⟨a, b, ends, hrev⟩ : ∃ a b ends, chain.reverse = a :: b :: ends := by
        match h : chain.reverse with
        | [] => exact absurd (List.reverse_eq_nil_iff.1 h) hc
        | [.node ref] => exact absurd (List.reverse_eq_iff.1 h) (hnode ref)
        | [.subgraph name body] => exact absurd (List.reverse_eq_iff.1 h) (hsub name body)
        | a :: b :: ends => exact ⟨a, b, ends, rfl⟩
      rw [hrev, finishesEnds_many, ← hrev]
      exact Iff.rfl

/-- A node with a port is not assigned to. -/
theorem agrees_afterPort (r : Reading) (chain : List Endpoint) (word : Token) (port : String)
    (t : Token) :
    Agrees ok (r.afterNode chain word (some port) t) d ls
      (ContinuesChain ok (r.Rest ok d) (.node ⟨word.value, some port⟩ :: chain)
        (t.lexeme :: ls)) := by
  rw [afterNode]
  split
  · next h =>
    refine agrees_fail r _ fun hc => ?_
    exact kind_ne_of_continuesChain (fun _ _ => rest_head) hc (.inl rfl) h.1
  · exact agrees_afterEndpoint check r (List.cons_ne_nil _ _) t

/-- A word that is no keyword here is a node, unless it is assigned to. -/
theorem agrees_afterWord (r : Reading) (chain : List Endpoint) {word t : Token}
    (hw : word.lexeme.isId) (hcolon : t.kind ≠ .colon)
    (hsub : ¬StartsSubgraph (word.lexeme :: t.lexeme :: ls))
    (hattr : chain = [] → ¬StartsAttributes (word.lexeme :: t.lexeme :: ls)) :
    Agrees ok (r.afterNode chain word none t) d ls
      (r.Begins ok d chain (word.lexeme :: t.lexeme :: ls)) := by
  rw [afterNode]
  split
  · next h =>
    obtain ⟨ht, hc⟩ := h
    obtain rfl : chain = [] := List.isEmpty_iff.1 hc
    refine ⟨trivial, ?_⟩
    rw [begins_nil]
    constructor
    · rintro ⟨v, ms, rfl, hv, checked, rest⟩
      exact .inr (.inl ⟨_, _, _, _, rfl, hw, ht, hv, checked, rest⟩)
    · rintro (⟨w, o, ms, target, hls, hk, ho, -⟩ | ⟨k, e, v, ms, hls, -, he, hv, checked, rest⟩ |
        ⟨-, h⟩)
      · obtain ⟨rfl, htail⟩ := List.cons.inj hls
        obtain ⟨rfl, rfl⟩ := List.cons.inj htail
        exact absurd ⟨⟨target, hk⟩, ho⟩ (hattr rfl)
      · obtain ⟨rfl, htail⟩ := List.cons.inj hls
        obtain ⟨rfl, rfl⟩ := List.cons.inj htail
        exact ⟨v, ms, rfl, hv, checked, rest⟩
      · have chained := (beginsSide_other hw hsub hcolon).1 h
        exact absurd ht (kind_ne_of_continuesChain (fun _ _ => rest_head) chained (.inl rfl))
  · next h =>
    refine (agrees_afterEndpoint check r (List.cons_ne_nil _ _) t).congr ?_
    rw [begins_side hattr, beginsSide_other hw hsub hcolon]
    · exact Iff.rfl
    · rintro rfl k e ms hls he
      obtain ⟨-, htail⟩ := List.cons.inj hls
      obtain ⟨rfl, -⟩ := List.cons.inj htail
      exact h ⟨he, rfl⟩

theorem agrees_afterName (r : Reading) (chain : List Endpoint) {word : Token}
    (hw : word.lexeme.isId) (t : Token) :
    Agrees ok (r.afterName chain word t) d ls
      (r.Begins ok d chain (word.lexeme :: t.lexeme :: ls)) := by
  have side : t.kind ≠ .leftBracket → t.kind ≠ .equal →
      (r.Begins ok d chain (word.lexeme :: t.lexeme :: ls) ↔
        r.BeginsSide ok d chain (word.lexeme :: t.lexeme :: ls)) := by
    intro hb he
    refine begins_side (fun _ h => hb h.2) fun _ k e ms hls => ?_
    obtain ⟨-, htail⟩ := List.cons.inj hls
    obtain ⟨rfl, -⟩ := List.cons.inj htail
    exact he
  rw [afterName]
  -- A colon comes before a port.
  split
  · next h =>
    refine ⟨trivial, ?_⟩
    rw [side (by rw [h]; decide) (by rw [h]; decide), beginsSide_colon hw h]
    exact Iff.rfl
  next hcolon =>
  -- A brace or a name after the keyword makes it the head of a subgraph.
  split
  · next h =>
    refine ⟨trivial, ?_⟩
    rw [side (by rw [h.2]; decide) (by rw [h.2]; decide),
      beginsSide_keyword (w := word.lexeme) h.1 h.2]
    exact Iff.rfl
  next hbrace =>
  split
  · next h =>
    refine ⟨trivial, ?_⟩
    have hn : t.lexeme.isName := h.2
    rw [side (by rintro hk; simp [Token.isName, hk] at h)
      (by rintro hk; simp [Token.isName, hk] at h), beginsSide_named (w := word.lexeme) h.1 hn]
    exact Iff.rfl
  next hname =>
  -- What is left are attributes for things to come, assignments and nodes.
  have hsub : ¬StartsSubgraph (word.lexeme :: t.lexeme :: ls) := by
    rintro ⟨hk, ht | ht⟩
    · exact hbrace ⟨hk, ht⟩
    · exact hname ⟨hk, ht⟩
  split
  · next h =>
    obtain rfl : chain = [] := List.isEmpty_iff.1 h.2
    split
    · next target ht =>
      refine ⟨trivial, ?_⟩
      rw [begins_attributes r (target?_eq_some_iff.1 ht) h.1, finishesLists_leftBracket h.1]
      exact Iff.rfl
    · next ht =>
      refine agrees_afterWord check r [] hw hcolon hsub fun _ ha => ?_
      obtain ⟨target, hk⟩ := ha.1
      rw [target?_eq_some_iff.2 hk] at ht
      cases ht
  · next h =>
    refine agrees_afterWord check r chain hw hcolon hsub fun hc ha => ?_
    exact h ⟨ha.2, by rw [hc]; rfl⟩

end

theorem agrees_inList (r : Reading) (subject : Subject) (entries : List Entry) (t : Token) :
    Agrees ok (r.inList subject entries t) d ls
      (r.FinishesPairs ok d subject (Entry.assignments entries) (t.lexeme :: ls)) := by
  rw [inList]
  split
  · next h => exact ⟨trivial, (finishesPairs_rightBracket h).symm⟩
  next hb =>
  split
  · next h =>
    refine ⟨trivial, ?_⟩
    have hk : t.lexeme.isKey := Lexeme.isKey_iff.2 h
    rw [finishesPairs_key hk]
    exact Iff.rfl
  · next h =>
    refine agrees_fail r _ fun hp => ?_
    obtain ⟨l, ms, hls, hl⟩ := finishesPairs_head hp
    obtain ⟨rfl, -⟩ := List.cons.inj hls
    rcases hl with hl | hl
    · exact hb hl
    · exact h (Lexeme.isKey_iff.1 hl)

/-- After a port a colon leads to a compass point, and all else is behind the node. -/
theorem agrees_port (check : ∀ o entries, Entry.firstError? o entries = none →
    ok o (entries.map fun e => (e.key, e.text))) (r : Reading) {chain : List Endpoint}
    {word : Token} {port : String} (hr : r.part = .port chain word port) (t : Token) :
    Agrees ok (r.step t) d ls (r.Completes ok d (t.lexeme :: ls)) := by
  simp only [step, Completes, hr]
  split
  · next h =>
    refine ⟨trivial, ?_⟩
    constructor
    · rintro ⟨q, ns, rfl, hq, rest⟩
      exact .inr ⟨_, q, ns, rfl, h, hq, rest⟩
    · rintro (rest | ⟨c, q, ns, hls, -, hq, rest⟩)
      · exact absurd h (kind_ne_of_continuesChain (fun _ _ => rest_head) rest (.inr rfl))
      · obtain ⟨rfl, rfl⟩ := List.cons.inj hls
        exact ⟨q, ns, rfl, hq, rest⟩
  · next h =>
    refine (agrees_afterPort check r chain word port t).congr ⟨?_, .inl⟩
    rintro (rest | ⟨c, q, ns, hls, hc, -⟩)
    · exact rest
    · obtain ⟨rfl, -⟩ := List.cons.inj hls
      exact absurd hc h

/-- After an attribute in brackets a separator may be left out. -/
theorem agrees_entry (r : Reading) {subject : Subject} {entries : List Entry}
    (hr : r.part = .entry subject entries) (t : Token) :
    Agrees ok (r.step t) d ls (r.Completes ok d (t.lexeme :: ls)) := by
  simp only [step, Completes, hr]
  split
  · next h =>
    refine ⟨trivial, ?_⟩
    constructor
    · intro hp
      exact ⟨ls, .present ls h, hp⟩
    · rintro ⟨ms, hm, hp⟩
      cases hm with
      | absent =>
        -- A separator is no key, so it is not left out in front of itself.
        obtain ⟨l, ms, hls, hl⟩ := finishesPairs_head hp
        obtain ⟨rfl, -⟩ := List.cons.inj hls
        rw [Lexeme.isKey_iff] at hl
        have h : t.lexeme.kind = .comma ∨ t.lexeme.kind = .semicolon := h
        rcases h with h | h <;> rw [h] at hl <;> exact absurd hl (by decide)
      | present => exact hp
  · next h =>
    refine (agrees_inList r subject entries t).congr ⟨?_, fun hp => ⟨_, .absent _, hp⟩⟩
    rintro ⟨ms, hm, hp⟩
    cases hm with
    | absent => exact hp
    | present _ hm => exact absurd hm h

/-- A token is read exactly if it completes the reading together with later ones. -/
theorem step_agrees (check : ∀ o entries, Entry.firstError? o entries = none →
    ok o (entries.map fun e => (e.key, e.text))) (r : Reading) (hr : (Progress.body r).Sound)
    (t : Token) : Agrees ok (r.step t) d ls (r.Completes ok d (t.lexeme :: ls)) := by
  have assignments_cons : ∀ (e : Entry) (entries : List Entry),
      Entry.assignments (e :: entries) = Entry.assignments entries ++ [(e.key, e.text)] := by
    simp [Entry.assignments]
  -- What is missing starts with a lexeme of its own: it is the token that is read.
  have head : ∀ {Q : Lexeme → List Lexeme → Prop},
      (∃ l ms, t.lexeme :: ls = l :: ms ∧ Q l ms) ↔ Q t.lexeme ls := by
    intro Q
    constructor
    · rintro ⟨l, ms, h, hQ⟩
      obtain ⟨rfl, rfl⟩ := List.cons.inj h
      exact hQ
    · exact fun hQ => ⟨_, _, rfl, hQ⟩
  obtain ⟨header, braces, stmts, part, remarks⟩ := r
  cases part with
  | nothing => exact agrees_between _ t
  | operator chain => exact agrees_first _ chain .endpoint t
  | name chain word => exact agrees_afterName check _ chain hr t
  | subgraphName chain name =>
    refine Agrees.congr ?_ head
    exact agrees_expect _ trivial Iff.rfl
  | colon chain word =>
    refine Agrees.congr ?_ head
    exact agrees_expect _ trivial Iff.rfl
  | port chain word port => exact agrees_port check _ rfl t
  | portColon chain word port =>
    refine Agrees.congr ?_ head
    exact agrees_expect _ trivial Iff.rfl
  | compass chain word port => exact agrees_afterPort check _ chain word port t
  | endpoint chain => exact agrees_afterEndpoint check _ hr t
  | assign key =>
    refine Agrees.congr ?_ head
    exact agrees_expect _ trivial Iff.rfl
  | assigned entry => exact agrees_afterList check _ (.attributes .scope) [entry] t
  | list subject entries => exact agrees_inList _ subject entries t
  | key subject entries key =>
    refine Agrees.congr ?_ head
    exact agrees_expect _ trivial Iff.rfl
  | equals subject entries key =>
    refine Agrees.congr ?_ head
    refine agrees_expect _ trivial ?_
    show (∃ ms, Separator ls ms ∧ _) ↔ _
    rw [assignments_cons]
    exact Iff.rfl
  | entry subject entries => exact agrees_entry _ rfl t
  | lists subject entries => exact agrees_afterSubject check _ subject entries t

theorem not_continuesChain_nil (r : Reading) (chain : List Endpoint) :
    ¬ContinuesChain ok (r.Rest ok d) chain [] := by
  intro h
  obtain ⟨l, ms, hls, -⟩ := continuesChain_head (fun _ _ => rest_head) h
  cases hls

/-- A word alone is neither a statement nor an endpoint. -/
theorem not_begins_word (r : Reading) (chain : List Endpoint) {w : Lexeme} (hw : w.isId) :
    ¬r.Begins ok d chain [w] := by
  have hattr : ¬StartsAttributes [w] := id
  rw [begins_side (fun _ => hattr) (fun _ k e ms hls => by cases hls), beginsSide_node hw id]
  rintro ⟨ref, ms, hn, rest⟩
  cases hn with
  | id => exact not_continuesChain_nil r _ rest

/-- A document that is cut short is not complete. -/
theorem not_completes_nil (r : Reading) (hr : (Progress.body r).Sound) : ¬r.Completes ok d [] := by
  have pairs : ∀ {subject : Subject} {read : Assignments},
      ¬r.FinishesPairs ok d subject read [] := by
    intro subject read h
    obtain ⟨l, ms, hls, -⟩ := finishesPairs_head h
    cases hls
  obtain ⟨header, braces, stmts, part, remarks⟩ := r
  intro h
  cases part with
  | nothing =>
    obtain ⟨l, ms, hls, -⟩ := closes_head h
    cases hls
  | operator chain =>
    obtain ⟨l, ms, hls, -⟩ := begins_head h
    cases hls
  | name chain word => exact not_begins_word _ chain hr h
  | port chain word port =>
    rcases h with h | ⟨c, q, ns, hls, -⟩
    · exact not_continuesChain_nil _ _ h
    · cases hls
  | compass chain word port => exact not_continuesChain_nil _ _ h
  | endpoint chain => exact not_continuesChain_nil _ _ h
  | assigned entry =>
    obtain ⟨l, ms, hls, -⟩ := rest_head h.2
    cases hls
  | list subject entries => exact pairs h
  | entry subject entries =>
    obtain ⟨ms, hm, h⟩ := h
    cases hm with
    | absent => exact pairs h
  | lists subject entries => exact not_finishesLists_nil h
  -- The other parts ask for a lexeme of their own.
  | subgraphName | colon | portColon | assign | key | equals =>
    obtain ⟨l, ms, hls, -⟩ := h
    cases hls

end Reading

/-! ### Documents -/

namespace Progress

variable {d : Document} {ls : List Lexeme}

theorem completesBrace_cons {header : Header} {l : Lexeme} :
    CompletesBrace ok header d (l :: ls) ↔
      l.kind = .leftBrace ∧ Closes ok header d [] [] ls := by
  constructor
  · rintro ⟨o, ms, hls, ho, h⟩
    obtain ⟨rfl, rfl⟩ := List.cons.inj hls
    exact ⟨ho, h⟩
  · rintro ⟨ho, h⟩
    exact ⟨l, ls, rfl, ho, h⟩

/-- A name after the word `graph` is the name of the graph. -/
theorem completesTitle_name {header : Header} {l : Lexeme} (hl : l.isName) :
    CompletesTitle ok header d (l :: ls) ↔
      CompletesBrace ok { header with name := some l.value } d ls := by
  constructor
  · rintro ⟨name, ms, ht, h⟩
    cases ht with
    | absent =>
      obtain ⟨ho, -⟩ := completesBrace_cons.1 h
      simp [Lexeme.isName, ho] at hl
    | present => exact h
  · intro h
    exact ⟨_, _, .present ls hl, h⟩

theorem completesTitle_other {header : Header} (hn : header.name = none) {l : Lexeme}
    (hl : ¬l.isName) :
    CompletesTitle ok header d (l :: ls) ↔ CompletesBrace ok header d (l :: ls) := by
  have none_eq : ({ header with name := none } : Header) = header := by rw [← hn]
  constructor
  · rintro ⟨name, ms, ht, h⟩
    cases ht with
    | absent => rwa [none_eq] at h
    | present _ hn => exact absurd hn hl
  · intro h
    exact ⟨none, _, .absent _, by rwa [none_eq]⟩

/-- A word is `graph` or `digraph`, but not both. -/
theorem not_isKeyword_of_ne {l : Lexeme} {v w : String} (h : l.isKeyword v) (hvw : v ≠ w) :
    ¬l.isKeyword w := by
  simp only [Lexeme.isKeyword, Bool.and_eq_true, decide_eq_true_eq] at h ⊢
  exact fun hw => hvw (h.2.symm.trans hw.2)

theorem completesKind_cons (strict : Bool) {l : Lexeme} :
    CompletesKind ok strict d (l :: ls) ↔
      l.isKeyword "digraph" ∧ CompletesTitle ok { strict := strict, directed := true } d ls ∨
        l.isKeyword "graph" ∧ CompletesTitle ok { strict := strict, directed := false } d ls := by
  constructor
  · rintro ⟨directed, ms, hk, h⟩
    cases hk with
    | graph _ hw => exact .inr ⟨hw, h⟩
    | digraph _ hw => exact .inl ⟨hw, h⟩
  · rintro (⟨hw, h⟩ | ⟨hw, h⟩)
    · exact ⟨true, ls, .digraph ls hw, h⟩
    · exact ⟨false, ls, .graph ls hw, h⟩

theorem agrees_readKeyword (strict : Bool) (t : Token) :
    Agrees ok (readKeyword strict t) d ls (CompletesKind ok strict d (t.lexeme :: ls)) := by
  have digraph_of : t.isKeyword "digraph" = t.lexeme.isKeyword "digraph" := rfl
  have graph_of : t.isKeyword "graph" = t.lexeme.isKeyword "graph" := rfl
  rw [readKeyword]
  rw [digraph_of, graph_of]
  split
  · next hd =>
    refine ⟨rfl, ?_⟩
    rw [completesKind_cons strict]
    have hg := not_isKeyword_of_ne hd (w := "graph") (by decide)
    exact ⟨fun h => .inl ⟨hd, h⟩, fun h => h.elim And.right fun h => absurd h.1 hg⟩
  next hd =>
  split
  · next hg =>
    refine ⟨rfl, ?_⟩
    rw [completesKind_cons strict]
    exact ⟨fun h => .inr ⟨hg, h⟩, fun h => h.elim (fun h => absurd h.1 hd) And.right⟩
  · next hg =>
    intro h
    rcases (completesKind_cons strict).1 h with ⟨h, -⟩ | ⟨h, -⟩
    · exact absurd h hd
    · exact absurd h hg

theorem agrees_readBrace (header : Header) (t : Token) :
    Agrees ok (readBrace header t) d ls (CompletesBrace ok header d (t.lexeme :: ls)) := by
  rw [readBrace]
  split
  · next h =>
    refine ⟨trivial, ?_⟩
    rw [completesBrace_cons]
    exact ⟨fun hc => ⟨h, hc⟩, And.right⟩
  · next h => exact fun hc => absurd (completesBrace_cons.1 hc).1 h

/-- The word `strict` is no other word of the language. -/
theorem completes_start_cons {l : Lexeme} :
    start.Completes ok d (l :: ls) ↔
      l.isKeyword "strict" ∧ CompletesKind ok true d ls ∨ CompletesKind ok false d (l :: ls) := by
  constructor
  · rintro ⟨strict, ms, hs, h⟩
    cases hs with
    | absent => exact .inr h
    | present _ hw => exact .inl ⟨hw, h⟩
  · rintro (⟨hw, h⟩ | h)
    · exact ⟨true, ls, .present ls hw, h⟩
    · exact ⟨false, _, .absent _, h⟩

/-- A token is read exactly if it completes what has been read together with later
    ones. -/
theorem step_agrees (check : ∀ o entries, Entry.firstError? o entries = none →
    ok o (entries.map fun e => (e.key, e.text))) (p : Progress) (hp : p.Sound) (t : Token) :
    Agrees ok (p.step t) d ls (p.Completes ok d (t.lexeme :: ls)) := by
  cases p with
  | start =>
    have strict_of : t.isKeyword "strict" = t.lexeme.isKeyword "strict" := rfl
    show Agrees ok (if t.isKeyword "strict" then _ else _) d ls _
    rw [strict_of]
    split
    · next hw =>
      refine ⟨trivial, ?_⟩
      rw [completes_start_cons, completesKind_cons false]
      have hd := not_isKeyword_of_ne hw (w := "digraph") (by decide)
      have hg := not_isKeyword_of_ne hw (w := "graph") (by decide)
      constructor
      · exact fun h => .inl ⟨hw, h⟩
      · rintro (h | h | h)
        · exact h.2
        · exact absurd h.1 hd
        · exact absurd h.1 hg
    · next hw =>
      refine (agrees_readKeyword false t).congr ?_
      rw [completes_start_cons]
      exact ⟨fun h => h.resolve_left fun h => hw h.1, .inr⟩
  | strict => exact agrees_readKeyword true t
  | keyword header =>
    show Agrees ok (if t.isName then _ else _) d ls _
    split
    · next hn => exact ⟨trivial, (completesTitle_name (l := t.lexeme) hn).symm⟩
    · next hn => exact (agrees_readBrace header t).congr (completesTitle_other hp hn)
  | titled header => exact agrees_readBrace header t
  | body r => exact r.step_agrees check hp t
  | closed document remarks => exact fun h => absurd h.1 (List.cons_ne_nil _ _)

/-- At the end of the text nothing is missing of a document that is closed. -/
theorem completes_nil {p : Progress} (hp : p.Sound) :
    p.Completes ok d [] ↔ ∃ remarks, p = closed d remarks := by
  constructor
  · intro h
    cases p with
    | closed document remarks => exact ⟨remarks, by rw [h.2]⟩
    | body r => exact absurd h (r.not_completes_nil hp)
    | start =>
      obtain ⟨_, _, hs, _, _, hk, -⟩ := h
      cases hs
      cases hk
    | strict =>
      obtain ⟨_, _, hk, -⟩ := h
      cases hk
    | keyword header =>
      obtain ⟨_, _, ht, o, ms, hls, -⟩ := h
      cases ht
      cases hls
    | titled header =>
      obtain ⟨o, ms, hls, -⟩ := h
      cases hls
  · rintro ⟨remarks, rfl⟩
    exact ⟨rfl, rfl⟩

/-- What comes of the end of the text: a document if nothing is missing of it, and
    else an error. -/
theorem finish_result (stop : Position) (p : Progress) :
    (∃ document remarks, p = closed document remarks ∧ (p.finish stop).result = .ok document) ∨
      (∀ document remarks, p ≠ closed document remarks) ∧
        ∃ e, (p.finish stop).result = .error e := by
  unfold finish
  split
  · next document remarks => exact .inl ⟨document, remarks, rfl, rfl⟩
  · next p hp =>
    refine .inr ⟨fun document remarks h => hp document remarks h, ?_⟩
    split
    · next s _ => exact ⟨s.error, rfl⟩
    · next q h => exact absurd h (step_endAt_ne_ok _ q stop)

/-- What comes of the tokens that are left. A document comes of them exactly if they
    complete what has been read to it, and an error only if they complete it to
    none, or to one with a text that the check lets pass and reading does not. -/
def Decides (ok : (o : Owner) → List (String × String) → Prop)
    (x : Except ParseError Document) (completes : Document → Prop) : Prop :=
  match x with
  | .ok document => ∀ d, completes d ↔ d = document
  | .error e => ∀ d, completes d → BadValue ok e

theorem run_decides (check : ∀ o entries, Entry.firstError? o entries = none →
    ok o (entries.map fun e => (e.key, e.text))) (stop : Position) (ts : List Token)
    (p : Progress) (hp : p.Sound) :
    Decides ok (p.run stop ts).result
      fun d => p.Completes ok d (ts.map Token.lexeme) := by
  induction ts generalizing p with
  | nil =>
    rw [run, List.map_nil]
    rcases finish_result stop p with ⟨document, remarks, rfl, h⟩ | ⟨hne, e, h⟩
    · rw [h]
      intro d
      exact and_iff_right rfl
    · rw [h]
      intro d hd
      obtain ⟨remarks, hc⟩ := (completes_nil hp).1 hd
      exact absurd hc (hne d remarks)
  | cons t ts ih =>
    rw [run, List.map_cons]
    have agrees : ∀ d, Agrees ok (p.step t) d (ts.map Token.lexeme)
        (p.Completes ok d (t.lexeme :: ts.map Token.lexeme)) :=
      fun d => step_agrees check p hp t
    cases h : p.step t with
    | ok q =>
      rw [h] at agrees
      have rest := ih q (agrees default).1
      -- The completions are the same ones before the token and after it.
      have same : (fun d => p.Completes ok d (t.lexeme :: ts.map Token.lexeme)) =
          fun d => q.Completes ok d (ts.map Token.lexeme) := by
        funext d
        exact propext (agrees d).2.symm
      rw [same]
      exact rest
    | error s =>
      rw [h] at agrees
      exact agrees

end Progress

/-- Nothing having been read, a document of the grammar is missing. -/
theorem completes_start_iff {d : Document} {ls : List Lexeme} :
    Progress.start.Completes ok d ls ↔ Sentence ls d ∧ d.Checked ok := by
  constructor
  · rintro ⟨strict, ms, hs, directed, ns, hk, name, rest, ht, o, later, rfl, ho, body, c, hb, hc,
      checked, rfl⟩
    exact ⟨.mk hs hk ht ho hb hc, checked⟩
  · rintro ⟨h, checked⟩
    cases h with
    | mk hs hk ht ho hb hc =>
      exact ⟨_, _, hs, _, _, hk, _, _, ht, _, _, rfl, ho, _, _, hb, hc, checked, rfl⟩

/-- What comes of the tokens of a text, for any check that reading makes. -/
theorem parse_decides (check : ∀ o entries, Entry.firstError? o entries = none →
    ok o (entries.map fun e => (e.key, e.text))) (ts : Tokens) :
    Progress.Decides ok ts.parse.result
      fun d => Sentence ts.lexemes d ∧ d.Checked ok := by
  have h := Progress.run_decides check ts.stop ts.pending .start trivial
  simp only [completes_start_iff] at h
  exact h

/-! ### The check that reading makes -/

/-- A text has no mismatch exactly if it can be assigned. -/
theorem Owner.mismatch?_eq_none_iff {o : Owner} {key text : String} :
    o.mismatch? key text = none ↔ ∃ a : Attributes o, (∅ : Attributes o).set key text = .ok a := by
  rw [mismatch?, Attributes.set]
  constructor
  · intro h
    split
    · exact ⟨_, rfl⟩
    · next t ht =>
      rw [ht] at h
      split
      · exact ⟨_, rfl⟩
      · next m hm => simp [hm] at h
  · rintro ⟨a, h⟩
    split at h
    · next ht => rw [ht]
    · next t ht =>
      split at h
      · next v hv => simp [ht, hv]
      · cases h

/-- Reading finds no error exactly if every text can be assigned. -/
theorem Entry.firstError?_eq_none_iff {o : Owner} {entries : List Entry} :
    firstError? o entries = none ↔ o.Accepts (entries.map fun e => (e.key, e.text)) := by
  simp only [firstError?, List.findSome?_eq_none_iff, Option.map_eq_none_iff, Owner.Accepts,
    List.forall_mem_map, Owner.mismatch?_eq_none_iff]

/-- The graph of a text is that of the sentence that the text is. -/
theorem ofText_eq_ok_iff {text : String} {g : Graph} :
    Graph.ofText text = .ok g ↔
      ∃ d, Sentence (Tokens.ofText text).lexemes d ∧ d.Checked Owner.Accepts ∧ d.toGraph = g := by
  have h : Progress.Decides Owner.Accepts (Tokens.ofText text).parse.result _ :=
    parse_decides (fun _ _ => Entry.firstError?_eq_none_iff.1) (Tokens.ofText text)
  show (Tokens.ofText text).parse.result.map Document.toGraph = .ok g ↔ _
  cases hr : (Tokens.ofText text).parse.result with
  | ok document =>
    rw [hr] at h
    constructor
    · intro hg
      obtain ⟨hs, checked⟩ := (h document).2 rfl
      exact ⟨document, hs, checked, Except.ok.inj hg⟩
    · rintro ⟨d, hs, checked, rfl⟩
      rw [(h d).1 ⟨hs, checked⟩]
      rfl
  | error e =>
    rw [hr] at h
    constructor
    · intro hg
      cases hg
    · rintro ⟨d, hs, checked, -⟩
      obtain ⟨o, entries, herr, accepts⟩ := h d ⟨hs, checked⟩
      rw [Entry.firstError?_eq_none_iff.2 accepts] at herr
      cases herr

/-- A text has a graph exactly if its tokens are a sentence of the grammar and every
    text in it that is assigned to a key converts to a value of the key. -/
theorem ofText_isOk_iff_sentence (text : String) :
    (∃ g, Graph.ofText text = .ok g) ↔
      ∃ d, Sentence (Tokens.ofText text).lexemes d ∧ d.Checked Owner.Accepts := by
  constructor
  · rintro ⟨g, h⟩
    obtain ⟨d, hs, checked, -⟩ := ofText_eq_ok_iff.1 h
    exact ⟨d, hs, checked⟩
  · rintro ⟨d, hs, checked⟩
    exact ⟨d.toGraph, ofText_eq_ok_iff.2 ⟨d, hs, checked, rfl⟩⟩

/-- A text that is read, and what is found by looking at the graph. -/
theorem Graph.exists_of_toOption_any (text : String) {P : Graph → Prop} [DecidablePred P]
    (h : ((Graph.ofText text).toOption.any fun g => decide (P g)) = true) :
    ∃ g, Graph.ofText text = .ok g ∧ P g := by
  cases hread : Graph.ofText text with
  | error e =>
    rw [hread] at h
    cases h
  | ok g =>
    rw [hread] at h
    exact ⟨g, rfl, of_decide_eq_true h⟩

end DotLang
