import SequentCalculus.Proofs.Reading.Acceptance
import SequentCalculus.Proofs.Reading.Sides

/-!
# Proofs/Reading/Unambiguity — every phrase has one derivation

A `ParseTree` is a derivation in the grammar, written out: one constructor per production, with the
tokens it stands on.  `Derives` says that there is one.  Two trees on the same tokens are equal
(`ParseTree.eq_of_tokens_eq`), and that has nothing to do with the reader.

The reason is where operators may stand.  A phrase never holds an operator looser than its level
outside parentheses (`Derives.mem_operators`).  So the operator of `And ::= And and Not` is the last
`and` outside parentheses, because none is left in `Not`; that of `Imp ::= Or implies Imp` is the
first `implies`, because none is left in `Or`.  Either way the two phrases around it are determined
(`ParseTree.split_eq`).

* `ofTokens_accepts_exactly_phrases` — the reader accepts exactly the phrases of the grammar, and each
  of them has one derivation.
-/

namespace SequentCalculus

namespace Token

theorem outside_of_ne_zero {depth : Int} (h : depth ≠ 0) (t : Token) (ts : List Token) :
    outside depth (t :: ts) = outside (t.depthAfter depth) ts :=
  if_neg h

/-- The tokens outside parentheses around an operator that stands outside them. -/
theorem outside_append_cons {ls : List Token} (hls : depthThrough 0 ls = 0) {t : Token}
    (ht : t.depthAfter 0 = 0) (rs : List Token) :
    outside 0 (ls ++ t :: rs) = outside 0 ls ++ t :: outside 0 rs := by
  rw [outside_append, hls, outside_zero_cons, ht]

/-- **Two ways to split tokens outside parentheses are the same, or each of the two tokens lies in a
part of the other split**, one of them to the left and the other to the right. -/
theorem split_cases {ls rs ls' rs' : List Token} {t t' : Token}
    (h : ls ++ t :: rs = ls' ++ t' :: rs') (hls : depthThrough 0 ls = 0)
    (hls' : depthThrough 0 ls' = 0) (ht : t.depthAfter 0 = 0) (ht' : t'.depthAfter 0 = 0) :
    (ls = ls' ∧ t = t' ∧ rs = rs') ∨ (t ∈ outside 0 ls' ∧ t' ∈ outside 0 rs) ∨
      (t' ∈ outside 0 ls ∧ t ∈ outside 0 rs') := by
  rcases List.append_eq_append_iff.1 h with ⟨mid, hlonger, hmid⟩ | ⟨mid, hlonger, hmid⟩
  · rcases mid with _ | ⟨u, mid⟩
    · obtain ⟨rfl, rfl⟩ := List.cons.inj hmid
      exact Or.inl ⟨by rw [hlonger, List.append_nil], rfl, rfl⟩
    · obtain ⟨rfl, rfl⟩ := List.cons.inj hmid
      rw [hlonger, depthThrough_append, hls, depthThrough_cons, ht] at hls'
      refine Or.inr (Or.inl ⟨?_, mem_outside_of_append hls' t' rs'⟩)
      rw [hlonger]
      exact mem_outside_of_append hls t mid
  · rcases mid with _ | ⟨u, mid⟩
    · obtain ⟨rfl, rfl⟩ := List.cons.inj hmid
      exact Or.inl ⟨by rw [hlonger, List.append_nil], rfl, rfl⟩
    · obtain ⟨rfl, rfl⟩ := List.cons.inj hmid
      rw [hlonger, depthThrough_append, hls', depthThrough_cons, ht'] at hls
      refine Or.inr (Or.inr ⟨?_, mem_outside_of_append hls t rs⟩)
      rw [hlonger]
      exact mem_outside_of_append hls' t' mid

end Token

open Token

namespace Formula

/-! ## Operators outside parentheses -/

/-- The binary operators that a phrase of a level may hold outside parentheses. -/
def Level.operators : Level → List BinaryConnective
  | .iff => [.iff, .implies, .or, .and]
  | .implies => [.implies, .or, .and]
  | .or => [.or, .and]
  | .and => [.and]
  | .not | .primary => []

/-- Inside parentheses, nothing of a phrase is outside. -/
theorem Derives.outside_of_pos {l : Level} {ts : List Token} {f : Formula} (h : Derives l ts f)
    {depth : Int} (hdepth : 0 < depth) : outside depth ts = [] := by
  induction h generalizing depth with
  | atom ht =>
    rw [outside_of_ne_zero (by omega), outside]
  | parens ho hts hc ih =>
    rw [outside_of_ne_zero (by omega), depthAfter_opening ho, outside_append, hts.depthThrough,
      ih (by omega), List.nil_append, outside_of_ne_zero (by omega), outside]
  | neg ht _ ih =>
    rw [outside_of_ne_zero (by omega), depthAfter_connective ht, ih hdepth]
  | ofPrimary _ ih | ofNot _ ih | ofAnd _ ih | ofOr _ ih | ofImplies _ ih => exact ih hdepth
  | and hl ht _ ihl ihr | or hl ht _ ihl ihr | implies hl ht _ ihl ihr | iff hl ht _ ihl ihr =>
    rw [outside_append, hl.depthThrough, ihl hdepth, List.nil_append,
      outside_of_ne_zero (by omega), depthAfter_connective ht, ihr hdepth]

/-- The operators outside parentheses of two phrases around an operator. -/
theorem Derives.mem_outside {l : Level} {ls rs : List Token} {f : Formula} (h : Derives l ls f)
    {t u : Token} {c : Connective} (ht : t.tag = .connective c)
    (hu : u ∈ outside 0 (ls ++ t :: rs)) : u ∈ outside 0 ls ∨ u = t ∨ u ∈ outside 0 rs := by
  rwa [outside_append_cons (h.depthThrough 0) (depthAfter_connective ht 0), List.mem_append,
    List.mem_cons] at hu

/-- **A phrase holds no operator looser than its level outside parentheses.** -/
theorem Derives.mem_operators {l : Level} {ts : List Token} {f : Formula} (h : Derives l ts f)
    {u : Token} (hmem : u ∈ outside 0 ts) {op : BinaryConnective}
    (hu : u.tag = .connective (.binary op)) : op ∈ l.operators := by
  induction h with
  | atom ht =>
    obtain rfl := List.mem_singleton.1 (mem_of_mem_outside hmem)
    rw [ht] at hu
    cases hu
  | parens ho hts hc _ =>
    -- only the opening parenthesis is outside
    rw [outside_zero_cons, depthAfter_opening ho, outside_append, hts.depthThrough,
      hts.outside_of_pos (by omega), List.nil_append, outside_of_ne_zero (by omega), outside,
      List.mem_singleton] at hmem
    rw [hmem, ho] at hu
    cases hu
  | neg ht _ ih =>
    rw [outside_zero_cons, depthAfter_connective ht, List.mem_cons] at hmem
    rcases hmem with rfl | hmem
    · rw [ht] at hu
      cases hu
    · exact ih hmem
  | ofPrimary _ ih => exact ih hmem
  | ofNot _ ih | ofAnd _ ih | ofOr _ ih | ofImplies _ ih => exact List.mem_cons_of_mem _ (ih hmem)
  | and hl ht _ ihl ihr | or hl ht _ ihl ihr =>
    rcases hl.mem_outside ht hmem with hmem | rfl | hmem
    · exact ihl hmem
    · rw [ht] at hu
      cases hu
      exact List.mem_cons_self
    · exact List.mem_cons_of_mem _ (ihr hmem)
  | implies hl ht _ ihl ihr | iff hl ht _ ihl ihr =>
    rcases hl.mem_outside ht hmem with hmem | rfl | hmem
    · exact List.mem_cons_of_mem _ (ihl hmem)
    · rw [ht] at hu
      cases hu
      exact List.mem_cons_self
    · exact ihr hmem

/-! ## Derivations written out -/

/-- A derivation of the grammar from a level. -/
inductive ParseTree : Level → Type
  | atom (t : Token) (ht : t.tag = .atom) : ParseTree .primary
  | parens (o : Token) (ho : o.tag = .opening) (inner : ParseTree .iff) (c : Token)
      (hc : c.tag = .closing) : ParseTree .primary
  | ofPrimary (p : ParseTree .primary) : ParseTree .not
  | neg (t : Token) (ht : t.tag = .connective .not) (p : ParseTree .not) : ParseTree .not
  | ofNot (p : ParseTree .not) : ParseTree .and
  | and (p : ParseTree .and) (t : Token) (ht : t.tag = .connective (.binary .and))
      (q : ParseTree .not) : ParseTree .and
  | ofAnd (p : ParseTree .and) : ParseTree .or
  | or (p : ParseTree .or) (t : Token) (ht : t.tag = .connective (.binary .or))
      (q : ParseTree .and) : ParseTree .or
  | ofOr (p : ParseTree .or) : ParseTree .implies
  | implies (p : ParseTree .or) (t : Token) (ht : t.tag = .connective (.binary .implies))
      (q : ParseTree .implies) : ParseTree .implies
  | ofImplies (p : ParseTree .implies) : ParseTree .iff
  | iff (p : ParseTree .implies) (t : Token) (ht : t.tag = .connective (.binary .iff))
      (q : ParseTree .iff) : ParseTree .iff

namespace ParseTree

/-- The tokens that a derivation ends in. -/
def tokens : {l : Level} → ParseTree l → List Token
  | _, atom t _ => [t]
  | _, parens o _ p c _ => o :: (p.tokens ++ [c])
  | _, neg t _ p => t :: p.tokens
  | _, ofPrimary p | _, ofNot p | _, ofAnd p | _, ofOr p | _, ofImplies p => p.tokens
  | _, and p t _ q | _, or p t _ q | _, implies p t _ q | _, iff p t _ q =>
    p.tokens ++ t :: q.tokens

/-- The formula that a derivation builds. -/
def formula : {l : Level} → ParseTree l → Formula
  | _, atom t _ => .ofName t.text.shown
  | _, parens _ _ p _ _ => p.formula
  | _, neg _ _ p => .neg p.formula
  | _, ofPrimary p | _, ofNot p | _, ofAnd p | _, ofOr p | _, ofImplies p => p.formula
  | _, and p _ _ q => .bin .and p.formula q.formula
  | _, or p _ _ q => .bin .or p.formula q.formula
  | _, implies p _ _ q => .bin .implies p.formula q.formula
  | _, iff p _ _ q => .bin .iff p.formula q.formula

theorem derives {l : Level} (p : ParseTree l) : Derives l p.tokens p.formula := by
  induction p with
  | atom t ht => exact .atom ht
  | parens o ho _ c hc ih => exact .parens ho ih hc
  | ofPrimary _ ih => exact .ofPrimary ih
  | neg t ht _ ih => exact .neg ht ih
  | ofNot _ ih => exact .ofNot ih
  | and _ t ht _ ihp ihq => exact .and ihp ht ihq
  | ofAnd _ ih => exact .ofAnd ih
  | or _ t ht _ ihp ihq => exact .or ihp ht ihq
  | ofOr _ ih => exact .ofOr ih
  | implies _ t ht _ ihp ihq => exact .implies ihp ht ihq
  | ofImplies _ ih => exact .ofImplies ih
  | iff _ t ht _ ihp ihq => exact .iff ihp ht ihq

end ParseTree

/-- The tree of a derivation. -/
theorem Derives.exists_parseTree {l : Level} {ts : List Token} {f : Formula}
    (h : Derives l ts f) : ∃ p : ParseTree l, p.tokens = ts ∧ p.formula = f := by
  induction h with
  | atom ht => exact ⟨.atom _ ht, rfl, rfl⟩
  | parens ho _ hc ih =>
    obtain ⟨p, rfl, rfl⟩ := ih
    exact ⟨.parens _ ho p _ hc, rfl, rfl⟩
  | ofPrimary _ ih =>
    obtain ⟨p, rfl, rfl⟩ := ih
    exact ⟨.ofPrimary p, rfl, rfl⟩
  | neg ht _ ih =>
    obtain ⟨p, rfl, rfl⟩ := ih
    exact ⟨.neg _ ht p, rfl, rfl⟩
  | ofNot _ ih =>
    obtain ⟨p, rfl, rfl⟩ := ih
    exact ⟨.ofNot p, rfl, rfl⟩
  | and _ ht _ ihp ihq =>
    obtain ⟨p, rfl, rfl⟩ := ihp
    obtain ⟨q, rfl, rfl⟩ := ihq
    exact ⟨.and p _ ht q, rfl, rfl⟩
  | ofAnd _ ih =>
    obtain ⟨p, rfl, rfl⟩ := ih
    exact ⟨.ofAnd p, rfl, rfl⟩
  | or _ ht _ ihp ihq =>
    obtain ⟨p, rfl, rfl⟩ := ihp
    obtain ⟨q, rfl, rfl⟩ := ihq
    exact ⟨.or p _ ht q, rfl, rfl⟩
  | ofOr _ ih =>
    obtain ⟨p, rfl, rfl⟩ := ih
    exact ⟨.ofOr p, rfl, rfl⟩
  | implies _ ht _ ihp ihq =>
    obtain ⟨p, rfl, rfl⟩ := ihp
    obtain ⟨q, rfl, rfl⟩ := ihq
    exact ⟨.implies p _ ht q, rfl, rfl⟩
  | ofImplies _ ih =>
    obtain ⟨p, rfl, rfl⟩ := ih
    exact ⟨.ofImplies p, rfl, rfl⟩
  | iff _ ht _ ihp ihq =>
    obtain ⟨p, rfl, rfl⟩ := ihp
    obtain ⟨q, rfl, rfl⟩ := ihq
    exact ⟨.iff p _ ht q, rfl, rfl⟩

namespace ParseTree

variable {k l m : Level} {op : BinaryConnective} {t t' : Token}

/-- A phrase is not split at an operator that its level does not hold. -/
theorem ne_append_cons (p : ParseTree l) (q : ParseTree k) (r : ParseTree m)
    (ht : t.tag = .connective (.binary op)) (hop : op ∉ l.operators) :
    p.tokens ≠ q.tokens ++ t :: r.tokens := by
  intro h
  have hmem : t ∈ outside 0 p.tokens := by
    rw [h]
    exact mem_outside_of_append (q.derives.depthThrough 0) t r.tokens
  exact hop (p.derives.mem_operators hmem ht)

/-- **Tokens split in one way** at an operator that one of the two levels does not hold. -/
theorem split_eq {p p' : ParseTree k} {q q' : ParseTree m}
    (h : p.tokens ++ t :: q.tokens = p'.tokens ++ t' :: q'.tokens)
    (ht : t.tag = .connective (.binary op)) (ht' : t'.tag = .connective (.binary op))
    (hop : op ∉ k.operators ∨ op ∉ m.operators) :
    p.tokens = p'.tokens ∧ t = t' ∧ q.tokens = q'.tokens := by
  rcases split_cases h (p.derives.depthThrough 0) (p'.derives.depthThrough 0)
    (depthAfter_connective ht 0) (depthAfter_connective ht' 0) with heq | ⟨hl, hr⟩ | ⟨hl, hr⟩
  · exact heq
  · rcases hop with hop | hop
    · exact absurd (p'.derives.mem_operators hl ht) hop
    · exact absurd (q.derives.mem_operators hr ht') hop
  · rcases hop with hop | hop
    · exact absurd (p.derives.mem_operators hl ht') hop
    · exact absurd (q'.derives.mem_operators hr ht) hop

/-- A primary does not start with a negation. -/
theorem primary_ne_cons (p : ParseTree .primary) (ht : t.tag = .connective .not)
    (ts : List Token) : p.tokens ≠ t :: ts := by
  intro h
  cases p with
  | atom u hu =>
    obtain ⟨rfl, -⟩ := List.cons.inj h
    rw [ht] at hu
    cases hu
  | parens o ho p c hc =>
    obtain ⟨rfl, -⟩ := List.cons.inj h
    rw [ht] at ho
    cases ho

/-- **Derivations that end in the same tokens are equal.** -/
theorem eq_of_tokens_eq (p : ParseTree l) : ∀ q : ParseTree l, p.tokens = q.tokens → p = q := by
  induction p with
  | atom t ht =>
    intro q h
    cases q with
    | atom u hu =>
      obtain ⟨rfl, -⟩ := List.cons.inj h
      rfl
    | parens o ho q c hc =>
      obtain ⟨rfl, -⟩ := List.cons.inj h
      rw [ht] at ho
      cases ho
  | parens o ho p c hc ih =>
    intro q h
    cases q with
    | atom u hu =>
      obtain ⟨rfl, -⟩ := List.cons.inj h
      rw [hu] at ho
      cases ho
    | parens o' ho' q c' hc' =>
      obtain ⟨rfl, hrest⟩ := List.cons.inj h
      obtain ⟨hinner, hclosing⟩ := List.append_inj' hrest rfl
      obtain ⟨rfl, -⟩ := List.cons.inj hclosing
      rw [ih q hinner]
  | ofPrimary p ih =>
    intro q h
    cases q with
    | ofPrimary q => rw [ih q h]
    | neg t ht q => exact absurd h (p.primary_ne_cons ht _)
  | neg t ht p ih =>
    intro q h
    cases q with
    | ofPrimary q => exact absurd h.symm (q.primary_ne_cons ht _)
    | neg u hu q =>
      obtain ⟨rfl, hrest⟩ := List.cons.inj h
      rw [ih q hrest]
  | ofNot p ih =>
    intro q h
    cases q with
    | ofNot q => rw [ih q h]
    | and q t ht r => exact absurd h (p.ne_append_cons q r ht (by decide))
  | and p t ht r ihp ihr =>
    intro q h
    cases q with
    | ofNot q => exact absurd h.symm (q.ne_append_cons p r ht (by decide))
    | and q t' ht' r' =>
      obtain ⟨hp, rfl, hr⟩ := split_eq h ht ht' (Or.inr (by decide))
      rw [ihp q hp, ihr r' hr]
  | ofAnd p ih =>
    intro q h
    cases q with
    | ofAnd q => rw [ih q h]
    | or q t ht r => exact absurd h (p.ne_append_cons q r ht (by decide))
  | or p t ht r ihp ihr =>
    intro q h
    cases q with
    | ofAnd q => exact absurd h.symm (q.ne_append_cons p r ht (by decide))
    | or q t' ht' r' =>
      obtain ⟨hp, rfl, hr⟩ := split_eq h ht ht' (Or.inr (by decide))
      rw [ihp q hp, ihr r' hr]
  | ofOr p ih =>
    intro q h
    cases q with
    | ofOr q => rw [ih q h]
    | implies q t ht r => exact absurd h (p.ne_append_cons q r ht (by decide))
  | implies p t ht r ihp ihr =>
    intro q h
    cases q with
    | ofOr q => exact absurd h.symm (q.ne_append_cons p r ht (by decide))
    | implies q t' ht' r' =>
      obtain ⟨hp, rfl, hr⟩ := split_eq h ht ht' (Or.inl (by decide))
      rw [ihp q hp, ihr r' hr]
  | ofImplies p ih =>
    intro q h
    cases q with
    | ofImplies q => rw [ih q h]
    | iff q t ht r => exact absurd h (p.ne_append_cons q r ht (by decide))
  | iff p t ht r ihp ihr =>
    intro q h
    cases q with
    | ofImplies q => exact absurd h.symm (q.ne_append_cons p r ht (by decide))
    | iff q t' ht' r' =>
      obtain ⟨hp, rfl, hr⟩ := split_eq h ht ht' (Or.inl (by decide))
      rw [ihp q hp, ihr r' hr]

end ParseTree

/-- A phrase has a derivation written out, and what has one is a phrase. -/
theorem derives_iff_exists_parseTree {l : Level} {ts : List Token} {f : Formula} :
    Derives l ts f ↔ ∃ p : ParseTree l, p.tokens = ts ∧ p.formula = f := by
  constructor
  · exact Derives.exists_parseTree
  · rintro ⟨p, rfl, rfl⟩
    exact p.derives

/-- **The reader accepts exactly the grammar, which is unambiguous.**  Tokens write a formula if and
only if they derive it in the grammar, any other tokens are refused with an error, and no tokens have
two derivations. -/
theorem ofTokens_accepts_exactly_phrases (ts : List Token) :
    (∀ f, ofTokens ts = .ok f ↔ Derives .iff ts f) ∧
    ((∃ e, ofTokens ts = .error e) ↔ ¬ ∃ f, Derives .iff ts f) ∧
    (∀ f, Derives .iff ts f ↔ ∃ p : ParseTree .iff, p.tokens = ts ∧ p.formula = f) ∧
    Subsingleton {p : ParseTree .iff // p.tokens = ts} := by
  refine ⟨fun f => ofTokens_eq_ok_iff_derives, ?_, fun f => derives_iff_exists_parseTree, ?_⟩
  · simp only [← ofTokens_eq_ok_iff_derives]
    rcases ofTokens ts with e | f <;> simp
  · refine ⟨fun p q => Subtype.ext ?_⟩
    exact p.1.eq_of_tokens_eq q.1 (p.2.trans q.2.symm)

end Formula

end SequentCalculus
