import SequentCalculus.Formula.Reader

/-!
# Proofs/Reading/Grammar — the grammar of formulas, and that the reader finds every phrase of it

    Iff ::= Imp | Imp iff Iff          And ::= Not | And and Not
    Imp ::= Or  | Or implies Imp       Not ::= not Not | Prim
    Or  ::= And | Or or And            Prim ::= atom | ( Iff )

`Derives l ts f` says that the tokens `ts` are a phrase of level `l` for the formula `f`, one
constructor per production.  The reader of a level, put in front of a phrase of that level, reads
exactly the phrase, whatever stands behind it that cannot continue it (`Derives.reads`).

The two levels that group to the left are left-recursive in the grammar and loops in the reader.  So
for them the statement is about the loop *in progress*: reading a phrase of `Or` in front of `rest`
is the same as being at `rest` with the phrase as the formula so far.
-/

namespace SequentCalculus.Formula

/-- The levels of the grammar, loosest first. -/
inductive Level where
  | iff
  | implies
  | or
  | and
  | not
  | primary
  deriving DecidableEq

/-- The tokens are a phrase of a level for the formula. -/
inductive Derives : Level → List Token → Formula → Prop
  | atom {t : Token} : t.tag = .atom → Derives .primary [t] (.ofName t.text.shown)
  | parens {o c : Token} {ts : List Token} {f : Formula} :
      o.tag = .opening → Derives .iff ts f → c.tag = .closing →
      Derives .primary (o :: (ts ++ [c])) f
  | ofPrimary {ts : List Token} {f : Formula} : Derives .primary ts f → Derives .not ts f
  | neg {t : Token} {ts : List Token} {f : Formula} :
      t.tag = .connective .not → Derives .not ts f → Derives .not (t :: ts) (.neg f)
  | ofNot {ts : List Token} {f : Formula} : Derives .not ts f → Derives .and ts f
  | and {t : Token} {ls rs : List Token} {f g : Formula} :
      Derives .and ls f → t.tag = .connective (.binary .and) → Derives .not rs g →
      Derives .and (ls ++ t :: rs) (.bin .and f g)
  | ofAnd {ts : List Token} {f : Formula} : Derives .and ts f → Derives .or ts f
  | or {t : Token} {ls rs : List Token} {f g : Formula} :
      Derives .or ls f → t.tag = .connective (.binary .or) → Derives .and rs g →
      Derives .or (ls ++ t :: rs) (.bin .or f g)
  | ofOr {ts : List Token} {f : Formula} : Derives .or ts f → Derives .implies ts f
  | implies {t : Token} {ls rs : List Token} {f g : Formula} :
      Derives .or ls f → t.tag = .connective (.binary .implies) → Derives .implies rs g →
      Derives .implies (ls ++ t :: rs) (.bin .implies f g)
  | ofImplies {ts : List Token} {f : Formula} : Derives .implies ts f → Derives .iff ts f
  | iff {t : Token} {ls rs : List Token} {f g : Formula} :
      Derives .implies ls f → t.tag = .connective (.binary .iff) → Derives .iff rs g →
      Derives .iff (ls ++ t :: rs) (.bin .iff f g)

/-! ## The readers without their bounds

The type of a reader's result bounds the length of the rest.  `outcome` forgets the bound, and each
reader has an equation between outcomes. -/

/-- A formula and the tokens behind it, or what is wrong. -/
abbrev Outcome := Except SyntaxError (Formula × List Token)

/-- What a reader gives, the bound on the rest forgotten. -/
def outcome {n : Nat} (r : Read n) : Outcome := r.map fun p => (p.value, p.rest)

/-- A level that groups to the right, behind its first operand. -/
def groupRight (op : BinaryConnective) (again : List Token → Outcome) :
    Formula × List Token → Outcome
  | (left, []) => .ok (left, [])
  | (left, t :: rest) =>
    if t.tag = .connective (.binary op) then
      (again rest).map fun right => (.bin op left right.1, right.2)
    else .ok (left, t :: rest)

theorem outcome_readIff (ts : List Token) :
    outcome (readIff ts) =
      (outcome (readImplies ts)).bind (groupRight .iff fun rest => outcome (readIff rest)) := by
  rw [readIff]
  rcases readImplies ts with e | ⟨left, _ | ⟨t, rest⟩, hshort⟩
  · rfl
  · rfl
  · by_cases ht : t.tag = .connective (.binary .iff)
    · simp only [outcome, bind, Except.bind, groupRight, Except.map, if_pos ht]
      rcases readIff rest with e | right <;> rfl
    · simp only [outcome, bind, Except.bind, groupRight, Except.map, if_neg ht]
      rfl

theorem outcome_readImplies (ts : List Token) :
    outcome (readImplies ts) =
      (outcome (readOr ts)).bind
        (groupRight .implies fun rest => outcome (readImplies rest)) := by
  rw [readImplies]
  rcases readOr ts with e | ⟨left, _ | ⟨t, rest⟩, hshort⟩
  · rfl
  · rfl
  · by_cases ht : t.tag = .connective (.binary .implies)
    · simp only [outcome, bind, Except.bind, groupRight, Except.map, if_pos ht]
      rcases readImplies rest with e | right <;> rfl
    · simp only [outcome, bind, Except.bind, groupRight, Except.map, if_neg ht]
      rfl

theorem outcome_readOr (ts : List Token) :
    outcome (readOr ts) =
      (outcome (readAnd ts)).bind fun p => outcome (readOrTail p.1 p.2) := by
  rw [readOr]
  rcases readAnd ts with e | first
  · rfl
  · simp only [outcome, bind, Except.bind, Except.map]
    rcases readOrTail first.value first.rest with e | all <;> rfl

theorem outcome_readOrTail_nil (left : Formula) :
    outcome (readOrTail left []) = .ok (left, []) := by
  rw [readOrTail]
  rfl

theorem outcome_readOrTail_cons (left : Formula) (t : Token) (rest : List Token) :
    outcome (readOrTail left (t :: rest)) =
      if t.tag = .connective (.binary .or) then
        (outcome (readAnd rest)).bind fun p => outcome (readOrTail (.bin .or left p.1) p.2)
      else .ok (left, t :: rest) := by
  rw [readOrTail]
  by_cases ht : t.tag = .connective (.binary .or)
  · simp only [if_pos ht]
    rcases readAnd rest with e | right
    · rfl
    · simp only [outcome, bind, Except.bind, Except.map]
      rcases readOrTail (.bin .or left right.value) right.rest with e | all <;> rfl
  · simp only [if_neg ht]
    rfl

theorem outcome_readAnd (ts : List Token) :
    outcome (readAnd ts) =
      (outcome (readNot ts)).bind fun p => outcome (readAndTail p.1 p.2) := by
  rw [readAnd]
  rcases readNot ts with e | first
  · rfl
  · simp only [outcome, bind, Except.bind, Except.map]
    rcases readAndTail first.value first.rest with e | all <;> rfl

theorem outcome_readAndTail_nil (left : Formula) :
    outcome (readAndTail left []) = .ok (left, []) := by
  rw [readAndTail]
  rfl

theorem outcome_readAndTail_cons (left : Formula) (t : Token) (rest : List Token) :
    outcome (readAndTail left (t :: rest)) =
      if t.tag = .connective (.binary .and) then
        (outcome (readNot rest)).bind fun p => outcome (readAndTail (.bin .and left p.1) p.2)
      else .ok (left, t :: rest) := by
  rw [readAndTail]
  by_cases ht : t.tag = .connective (.binary .and)
  · simp only [if_pos ht]
    rcases readNot rest with e | right
    · rfl
    · simp only [outcome, bind, Except.bind, Except.map]
      rcases readAndTail (.bin .and left right.value) right.rest with e | all <;> rfl
  · simp only [if_neg ht]
    rfl

theorem outcome_readNot_cons (t : Token) (rest : List Token) :
    outcome (readNot (t :: rest)) =
      if t.tag = .connective .not then
        (outcome (readNot rest)).map fun p => (.neg p.1, p.2)
      else outcome (readPrimary t rest) := by
  rw [readNot]
  by_cases ht : t.tag = .connective .not
  · simp only [if_pos ht]
    rcases readNot rest with e | inner <;> rfl
  · simp only [if_neg ht]

/-- The closing parenthesis behind a formula in parentheses. -/
def closeParens : Formula × List Token → Outcome
  | (_, []) => .error (.expectedClosing none)
  | (f, t :: rest) =>
    if t.tag = .closing then .ok (f, rest) else .error (.expectedClosing (some t.text))

theorem outcome_readPrimary_opening {t : Token} (ht : t.tag = .opening) (rest : List Token) :
    outcome (readPrimary t rest) = (outcome (readIff rest)).bind closeParens := by
  obtain ⟨tag, text⟩ := t
  obtain rfl : tag = .opening := ht
  rw [readPrimary]
  rcases readIff rest with e | ⟨inner, _ | ⟨u, rest'⟩, hshort⟩
  · rfl
  · rfl
  · by_cases hu : u.tag = .closing
    · simp only [outcome, bind, Except.bind, closeParens, Except.map, if_pos hu]
      rfl
    · simp only [outcome, bind, Except.bind, closeParens, Except.map, if_neg hu]

theorem outcome_readPrimary_atom {t : Token} (ht : t.tag = .atom) (rest : List Token) :
    outcome (readPrimary t rest) = .ok (.ofName t.text.shown, rest) := by
  obtain ⟨tag, text⟩ := t
  obtain rfl : tag = .atom := ht
  rw [readPrimary]
  rfl

/-! ## The reader finds every phrase -/

/-- No operator of the list comes next. -/
def NotNext (ops : List BinaryConnective) (rest : List Token) : Prop :=
  ∀ t ∈ rest.head?, ∀ op ∈ ops, t.tag ≠ .connective (.binary op)

theorem NotNext.mono {ops ops' : List BinaryConnective} {rest : List Token}
    (h : NotNext ops rest) (hsub : ops' ⊆ ops) : NotNext ops' rest :=
  fun t ht op hop => h t ht op (hsub hop)

theorem notNext_nil (ops : List BinaryConnective) : NotNext ops [] := by
  intro t ht
  cases ht

/-- A token that is none of the binary operators ends any phrase. -/
theorem notNext_cons {ops : List BinaryConnective} {t : Token}
    (h : ∀ op ∈ ops, t.tag ≠ .connective (.binary op)) (rest : List Token) :
    NotNext ops (t :: rest) := by
  intro u hu
  obtain rfl : t = u := by simpa using hu
  exact h

theorem groupRight_of_notNext {op : BinaryConnective} {again : List Token → Outcome}
    {left : Formula} {rest : List Token} (h : NotNext [op] rest) :
    groupRight op again (left, rest) = .ok (left, rest) := by
  rcases rest with _ | ⟨t, rest⟩
  · rfl
  · exact if_neg (h t (by simp) op (by simp))

theorem groupRight_of_next {op : BinaryConnective} (again : List Token → Outcome)
    {left right : Formula} {t : Token} {rest rest' : List Token}
    (ht : t.tag = .connective (.binary op)) (hright : again rest = .ok (right, rest')) :
    groupRight op again (left, t :: rest) = .ok (.bin op left right, rest') := by
  rw [groupRight, if_pos ht, hright]
  rfl

theorem readOrTail_of_notNext {left : Formula} {rest : List Token} (h : NotNext [.or] rest) :
    outcome (readOrTail left rest) = .ok (left, rest) := by
  rcases rest with _ | ⟨t, rest⟩
  · exact outcome_readOrTail_nil left
  · rw [outcome_readOrTail_cons, if_neg (h t (by simp) .or (by simp))]

theorem readAndTail_of_notNext {left : Formula} {rest : List Token} (h : NotNext [.and] rest) :
    outcome (readAndTail left rest) = .ok (left, rest) := by
  rcases rest with _ | ⟨t, rest⟩
  · exact outcome_readAndTail_nil left
  · rw [outcome_readAndTail_cons, if_neg (h t (by simp) .and (by simp))]

/-- What the reader of a level does in front of a phrase of the level.  The levels that group to the
left carry on behind the phrase, with its formula as the one so far. -/
def Level.Reads : Level → List Token → Formula → Prop
  | .iff, ts, f => ∀ rest, NotNext [.iff, .implies, .or, .and] rest →
      outcome (readIff (ts ++ rest)) = .ok (f, rest)
  | .implies, ts, f => ∀ rest, NotNext [.implies, .or, .and] rest →
      outcome (readImplies (ts ++ rest)) = .ok (f, rest)
  | .or, ts, f => ∀ rest, NotNext [.and] rest →
      outcome (readOr (ts ++ rest)) = outcome (readOrTail f rest)
  | .and, ts, f => ∀ rest, outcome (readAnd (ts ++ rest)) = outcome (readAndTail f rest)
  | .not, ts, f => ∀ rest, outcome (readNot (ts ++ rest)) = .ok (f, rest)
  | .primary, ts, f => ∀ rest, outcome (readNot (ts ++ rest)) = .ok (f, rest)

/-- A phrase of `Or`, read on its own. -/
theorem readOr_of_reads {ts : List Token} {f : Formula} (h : Level.or.Reads ts f)
    {rest : List Token} (hrest : NotNext [.or, .and] rest) :
    outcome (readOr (ts ++ rest)) = .ok (f, rest) := by
  rw [h rest (hrest.mono (by simp)), readOrTail_of_notNext (hrest.mono (by simp))]

/-- **The reader of a level reads every phrase of the level.** -/
theorem Derives.reads {l : Level} {ts : List Token} {f : Formula} (h : Derives l ts f) :
    l.Reads ts f := by
  induction h with
  | atom ht =>
    intro rest
    rw [List.singleton_append, outcome_readNot_cons, if_neg (by simp [ht]),
      outcome_readPrimary_atom ht]
  | @parens o c ts f ho _ hc ih =>
    intro rest
    -- the closing parenthesis ends the phrase inside
    have hinner : outcome (readIff (ts ++ c :: rest)) = .ok (f, c :: rest) :=
      ih (c :: rest) (notNext_cons (by simp [hc]) rest)
    rw [List.cons_append, List.append_assoc, List.singleton_append, outcome_readNot_cons,
      if_neg (by simp [ho]), outcome_readPrimary_opening ho, hinner]
    exact if_pos hc
  | ofPrimary _ ih => exact ih
  | neg ht _ ih =>
    intro rest
    rw [List.cons_append, outcome_readNot_cons, if_pos ht, ih rest]
    rfl
  | ofNot _ ih =>
    intro rest
    rw [outcome_readAnd, ih rest]
    rfl
  | @and t ls rs f g _ ht _ ihl ihr =>
    intro rest
    rw [List.append_assoc, List.cons_append, ihl (t :: (rs ++ rest)), outcome_readAndTail_cons,
      if_pos ht, ihr rest]
    rfl
  | ofAnd _ ih =>
    intro rest hrest
    rw [outcome_readOr, ih rest, readAndTail_of_notNext hrest]
    rfl
  | @or t ls rs f g _ ht _ ihl ihr =>
    intro rest hrest
    have hnext : NotNext [.and] (t :: (rs ++ rest)) := notNext_cons (by simp [ht]) _
    rw [List.append_assoc, List.cons_append, ihl _ hnext, outcome_readOrTail_cons, if_pos ht,
      ihr rest, readAndTail_of_notNext hrest]
    rfl
  | ofOr _ ih =>
    intro rest hrest
    rw [outcome_readImplies, readOr_of_reads ih (hrest.mono (by simp))]
    exact groupRight_of_notNext (hrest.mono (by simp))
  | @implies t ls rs f g _ ht _ ihl ihr =>
    intro rest hrest
    have hnext : NotNext [.or, .and] (t :: (rs ++ rest)) := notNext_cons (by simp [ht]) _
    rw [List.append_assoc, List.cons_append, outcome_readImplies, readOr_of_reads ihl hnext]
    exact groupRight_of_next (fun rest => outcome (readImplies rest)) ht (ihr rest hrest)
  | ofImplies _ ih =>
    intro rest hrest
    rw [outcome_readIff, ih rest (hrest.mono (by simp))]
    exact groupRight_of_notNext (hrest.mono (by simp))
  | @iff t ls rs f g _ ht _ ihl ihr =>
    intro rest hrest
    have hnext : NotNext [.implies, .or, .and] (t :: (rs ++ rest)) := notNext_cons (by simp [ht]) _
    rw [List.append_assoc, List.cons_append, outcome_readIff, ihl _ hnext]
    exact groupRight_of_next (fun rest => outcome (readIff rest)) ht (ihr rest hrest)

/-- A phrase has at least one token. -/
theorem Derives.ne_nil {l : Level} {ts : List Token} {f : Formula} (h : Derives l ts f) :
    ts ≠ [] := by
  induction h with
  | atom _ => simp
  | parens _ _ _ _ => simp
  | neg _ _ _ => simp
  | ofPrimary _ ih | ofNot _ ih | ofAnd _ ih | ofOr _ ih | ofImplies _ ih => exact ih
  | and _ _ _ _ _ | or _ _ _ _ _ | implies _ _ _ _ _ | iff _ _ _ _ _ => simp

/-- **The tokens of a phrase of the loosest level write its formula.** -/
theorem ofTokens_of_derives {ts : List Token} {f : Formula} (h : Derives .iff ts f) :
    ofTokens ts = .ok f := by
  have hread : outcome (readIff ts) = .ok (f, []) := by
    have h := h.reads [] (notNext_nil _)
    rwa [List.append_nil] at h
  rw [ofTokens, if_neg (by simpa using h.ne_nil)]
  rcases hr : readIff ts with e | p
  · rw [hr] at hread
    cases hread
  · rw [hr] at hread
    obtain ⟨rfl, hrest⟩ := Prod.mk.inj (Except.ok.inj hread)
    simp only [hrest]

/-- A phrase of `Not` is a phrase of every looser level. -/
theorem Derives.lift {ts : List Token} {f : Formula} (h : Derives .not ts f) :
    Derives .and ts f ∧ Derives .or ts f ∧ Derives .implies ts f ∧ Derives .iff ts f :=
  ⟨.ofNot h, .ofAnd (.ofNot h), .ofOr (.ofAnd (.ofNot h)),
    .ofImplies (.ofOr (.ofAnd (.ofNot h)))⟩

/-- **Two phrases of `Not` around an operator are a phrase of the loosest level**, whichever the
operator is: with operands that need no grouping the binding strengths do not matter. -/
theorem Derives.bin {op : BinaryConnective} {t : Token} {ls rs : List Token} {f g : Formula}
    (hf : Derives .not ls f) (ht : t.tag = .connective (.binary op)) (hg : Derives .not rs g) :
    Derives .iff (ls ++ t :: rs) (.bin op f g) := by
  obtain ⟨hfAnd, hfOr, hfImplies, -⟩ := hf.lift
  obtain ⟨hgAnd, -, hgImplies, hgIff⟩ := hg.lift
  match op with
  | .and => exact .ofImplies (.ofOr (.ofAnd (.and hfAnd ht hg)))
  | .or => exact .ofImplies (.ofOr (.or hfOr ht hgAnd))
  | .implies => exact .ofImplies (.implies hfOr ht hgImplies)
  | .iff => exact .iff hfImplies ht hgIff

end SequentCalculus.Formula
