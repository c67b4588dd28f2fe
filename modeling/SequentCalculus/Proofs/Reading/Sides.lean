import SequentCalculus.Proofs.Reading.Grammar
import SequentCalculus.Sequent.Reader

/-!
# Proofs/Reading/Sides — the sides of a sequent, and that they are cut where they were joined

A side is empty or a list of formulas with a comma between any two.  The reader cuts a side at the
commas, and a sequent at a turnstile or an arrow, by counting parentheses and without looking at the
formulas.  A phrase of the grammar holds neither a comma nor a turnstile, and the parentheses in it
are balanced (`Derives.depthThrough`), so both counts are zero exactly where the pieces were joined:

* `sideOfTokens_of_derives` — the formulas of a side are read back;
* `ofTokens_of_turnstile`, `ofTokens_of_arrow` — so are the two sides of a sequent.
-/

namespace SequentCalculus

namespace Token

/-- The depth of parentheses behind some tokens. -/
def depthThrough (depth : Int) (ts : List Token) : Int :=
  ts.foldl (fun depth t => t.depthAfter depth) depth

@[simp] theorem depthThrough_nil (depth : Int) : depthThrough depth [] = depth := rfl

@[simp] theorem depthThrough_cons (depth : Int) (t : Token) (ts : List Token) :
    depthThrough depth (t :: ts) = depthThrough (t.depthAfter depth) ts := rfl

@[simp] theorem depthThrough_append (depth : Int) (ts us : List Token) :
    depthThrough depth (ts ++ us) = depthThrough (depthThrough depth ts) us :=
  List.foldl_append

theorem depthAfter_opening {t : Token} (h : t.tag = .opening) (depth : Int) :
    t.depthAfter depth = depth + 1 := by
  simp [depthAfter, h]

theorem depthAfter_closing {t : Token} (h : t.tag = .closing) (depth : Int) :
    t.depthAfter depth = depth - 1 := by
  simp [depthAfter, h]

/-- A token that is no parenthesis leaves the depth as it is. -/
theorem depthAfter_of_ne {t : Token} (ho : t.tag ≠ .opening) (hc : t.tag ≠ .closing)
    (depth : Int) : t.depthAfter depth = depth := by
  obtain ⟨tag, text⟩ := t
  match tag with
  | .opening => exact absurd rfl ho
  | .closing => exact absurd rfl hc
  | .atom | .comma | .turnstile | .arrow | .connective _ => rfl

theorem depthAfter_connective {t : Token} {c : Connective} (h : t.tag = .connective c)
    (depth : Int) : t.depthAfter depth = depth :=
  depthAfter_of_ne (by simp [h]) (by simp [h]) depth

/-- The tokens at depth zero, from a given depth of parentheses on. -/
def outside : Int → List Token → List Token
  | _, [] => []
  | depth, t :: ts =>
    if depth = 0 then t :: outside (t.depthAfter depth) ts else outside (t.depthAfter depth) ts

theorem outside_append (depth : Int) (ts us : List Token) :
    outside depth (ts ++ us) = outside depth ts ++ outside (depthThrough depth ts) us := by
  induction ts generalizing depth with
  | nil => rfl
  | cons t ts ih =>
    rw [List.cons_append, outside, outside, ih, depthThrough_cons]
    split <;> rfl

theorem outside_zero_cons (t : Token) (ts : List Token) :
    outside 0 (t :: ts) = t :: outside (t.depthAfter 0) ts :=
  if_pos rfl

theorem mem_of_mem_outside {t : Token} : ∀ {depth : Int} {ts : List Token},
    t ∈ outside depth ts → t ∈ ts
  | _, [], h => h
  | depth, u :: ts, h => by
    rw [outside] at h
    split at h
    · rcases List.mem_cons.1 h with rfl | h
      · exact List.mem_cons_self
      · exact List.mem_cons_of_mem u (mem_of_mem_outside h)
    · exact List.mem_cons_of_mem u (mem_of_mem_outside h)

/-- A token stands outside parentheses if the depth in front of it is zero. -/
theorem mem_outside_of_append {depth : Int} {ts : List Token} (h : depthThrough depth ts = 0)
    (t : Token) (us : List Token) : t ∈ outside depth (ts ++ t :: us) := by
  rw [outside_append, h, outside_zero_cons]
  exact List.mem_append_right _ List.mem_cons_self

end Token

open Token

namespace Formula

/-- **The parentheses of a phrase are balanced.** -/
theorem Derives.depthThrough {l : Level} {ts : List Token} {f : Formula} (h : Derives l ts f)
    (depth : Int) : Token.depthThrough depth ts = depth := by
  induction h generalizing depth with
  | atom ht => exact depthAfter_of_ne (by simp [ht]) (by simp [ht]) depth
  | parens ho _ hc ih =>
    rw [depthThrough_cons, depthThrough_append, depthAfter_opening ho, ih, depthThrough_cons,
      depthAfter_closing hc, depthThrough_nil]
    omega
  | neg ht _ ih => rw [depthThrough_cons, depthAfter_connective ht, ih]
  | ofPrimary _ ih | ofNot _ ih | ofAnd _ ih | ofOr _ ih | ofImplies _ ih => exact ih depth
  | and _ ht _ ihl ihr | or _ ht _ ihl ihr | implies _ ht _ ihl ihr | iff _ ht _ ihl ihr =>
    rw [depthThrough_append, ihl, depthThrough_cons, depthAfter_connective ht, ihr]

/-- A phrase holds no comma and no turnstile. -/
theorem Derives.tag_ne {l : Level} {ts : List Token} {f : Formula} (h : Derives l ts f) :
    ∀ t ∈ ts, t.tag ≠ .comma ∧ t.tag ≠ .turnstile := by
  induction h with
  | atom ht =>
    intro t hmem
    obtain rfl := List.mem_singleton.1 hmem
    simp [ht]
  | parens ho _ hc ih =>
    rw [List.forall_mem_cons, List.forall_mem_append, List.forall_mem_singleton]
    exact ⟨by simp [ho], ih, by simp [hc]⟩
  | neg ht _ ih =>
    rw [List.forall_mem_cons]
    exact ⟨by simp [ht], ih⟩
  | ofPrimary _ ih | ofNot _ ih | ofAnd _ ih | ofOr _ ih | ofImplies _ ih => exact ih
  | and _ ht _ ihl ihr | or _ ht _ ihl ihr | implies _ ht _ ihl ihr | iff _ ht _ ihl ihr =>
    rw [List.forall_mem_append, List.forall_mem_cons]
    exact ⟨ihl, by simp [ht], ihr⟩

end Formula

namespace Sequent

open Formula

/-! ## Sides -/

/-- The tokens write one or more formulas with a comma between any two. -/
inductive DerivesList : List Token → List Formula → Prop
  | one {ts : List Token} {f : Formula} : Derives .iff ts f → DerivesList ts [f]
  | cons {c : Token} {ts rest : List Token} {f : Formula} {fs : List Formula} :
      Derives .iff ts f → c.tag = .comma → DerivesList rest fs →
      DerivesList (ts ++ c :: rest) (f :: fs)

/-- The tokens write a side: nothing at all, or formulas with commas. -/
def DerivesSide (ts : List Token) (fs : List Formula) : Prop :=
  (ts = [] ∧ fs = []) ∨ DerivesList ts fs

theorem pieces_of_no_comma {ts : List Token} (h : ∀ t ∈ ts, t.tag ≠ .comma) (depth : Int) :
    pieces depth ts = [ts] := by
  induction ts generalizing depth with
  | nil => rfl
  | cons t ts ih =>
    rw [List.forall_mem_cons] at h
    rw [pieces, if_neg fun hcomma => h.1 hcomma.1, ih h.2]
    rfl

/-- Tokens without a comma are a piece of their own if a comma outside parentheses follows. -/
theorem pieces_append_comma {ts : List Token} (h : ∀ t ∈ ts, t.tag ≠ .comma) {depth : Int}
    (hdepth : depthThrough depth ts = 0) {c : Token} (hc : c.tag = .comma) (rest : List Token) :
    pieces depth (ts ++ c :: rest) = ts :: pieces 0 rest := by
  induction ts generalizing depth with
  | nil =>
    obtain rfl : depth = 0 := hdepth
    have hafter : c.depthAfter 0 = 0 := depthAfter_of_ne (by simp [hc]) (by simp [hc]) 0
    rw [List.nil_append, pieces, hafter, if_pos ⟨hc, rfl⟩]
  | cons t ts ih =>
    rw [List.forall_mem_cons] at h
    rw [List.cons_append, pieces, if_neg fun hcomma => h.1 hcomma.1, ih h.2 hdepth]
    rfl

theorem formulasOf_pieces_of_derivesList {ts : List Token} {fs : List Formula}
    (h : DerivesList ts fs) : formulasOf (pieces 0 ts) = .ok fs := by
  induction h with
  | one hf =>
    rw [pieces_of_no_comma (fun t ht => (hf.tag_ne t ht).1), formulasOf, ofTokens_of_derives hf]
    rfl
  | cons hf hc _ ih =>
    rw [pieces_append_comma (fun t ht => (hf.tag_ne t ht).1) (hf.depthThrough 0) hc, formulasOf,
      ofTokens_of_derives hf, ih]
    rfl

theorem DerivesList.ne_nil {ts : List Token} {fs : List Formula} (h : DerivesList ts fs) :
    ts ≠ [] := by
  induction h with
  | one hf => exact hf.ne_nil
  | cons _ _ _ _ => simp

/-- **The formulas of a side are read back.** -/
theorem sideOfTokens_of_derives {ts : List Token} {fs : List Formula} (h : DerivesSide ts fs) :
    sideOfTokens ts = .ok fs := by
  obtain ⟨rfl, rfl⟩ | h := h
  · rfl
  · rw [sideOfTokens, if_neg (by simpa using h.ne_nil), formulasOf_pieces_of_derivesList h]

theorem DerivesSide.depthThrough {ts : List Token} {fs : List Formula} (h : DerivesSide ts fs) :
    Token.depthThrough 0 ts = 0 := by
  obtain ⟨rfl, rfl⟩ | h := h
  · rfl
  · induction h with
    | one hf => exact hf.depthThrough 0
    | cons hf hc _ ih =>
      rw [depthThrough_append, hf.depthThrough, depthThrough_cons,
        depthAfter_of_ne (by simp [hc]) (by simp [hc]), ih]

theorem DerivesSide.tag_ne {ts : List Token} {fs : List Formula} (h : DerivesSide ts fs) :
    ∀ t ∈ ts, t.tag ≠ .turnstile := by
  obtain ⟨rfl, rfl⟩ | h := h
  · simp
  · induction h with
    | one hf => exact fun t ht => (hf.tag_ne t ht).2
    | cons hf hc _ ih =>
      rw [List.forall_mem_append, List.forall_mem_cons]
      exact ⟨fun t ht => (hf.tag_ne t ht).2, by simp [hc], ih⟩

/-! ## Cutting a sequent -/

/-- The token reads `->` and is no parenthesis. -/
def IsArrow (t : Token) : Prop := t.text = arrowText ∧ t.tag ≠ .opening ∧ t.tag ≠ .closing

instance (t : Token) : Decidable (IsArrow t) := inferInstanceAs (Decidable (_ ∧ _))

theorem cuts_cons_turnstile {t : Token} (ht : t.tag = .turnstile) (place : Nat) (ts : List Token) :
    cuts place 0 (t :: ts) =
      (cuts (place + 1) 0 ts).map fun c => ⟨place :: c.turnstiles, c.arrow⟩ := by
  obtain ⟨tag, text⟩ := t
  obtain rfl : tag = .turnstile := ht
  simp [cuts]

/-- A token that is no turnstile can only be an arrow to cut at. -/
theorem cuts_cons_of_ne {t : Token} (ht : t.tag ≠ .turnstile) (place : Nat) (depth : Int)
    (ts : List Token) :
    cuts place depth (t :: ts) =
      (cuts (place + 1) (t.depthAfter depth) ts).map fun c =>
        if IsArrow t ∧ depth = 0 then ⟨c.turnstiles, some place⟩ else c := by
  obtain ⟨tag, text⟩ := t
  match tag with
  | .turnstile => exact absurd rfl ht
  | .opening =>
    simp only [cuts, depthAfter, IsArrow, ne_eq, not_true, false_and, and_false, if_false]
    rcases cuts (place + 1) (depth + 1) ts with e | c <;> rfl
  | .closing =>
    simp only [cuts, depthAfter, IsArrow, ne_eq, not_true, false_and, and_false, if_false]
    rcases cuts (place + 1) (depth - 1) ts with e | c <;> rfl
  | .atom | .comma | .arrow | .connective _ => simp [cuts, depthAfter, IsArrow]

/-- The place, if there is one, is that of the first arrow outside parentheses. -/
def IsFirstArrow (place : Nat) (depth : Int) (ts : List Token) : Option Nat → Prop
  | none => ∀ t ∈ outside depth ts, ¬ IsArrow t
  | some p => ∃ l t r, ts = l ++ t :: r ∧ p = place + l.length ∧ depthThrough depth l = 0 ∧
      IsArrow t ∧ ∀ u ∈ outside depth l, ¬ IsArrow u

theorem IsFirstArrow.eq_none {place : Nat} {depth : Int} {ts : List Token} {arrow : Option Nat}
    (h : IsFirstArrow place depth ts arrow) (hfree : ∀ t ∈ outside depth ts, ¬ IsArrow t) :
    arrow = none := by
  match arrow, h with
  | none, _ => rfl
  | some p, ⟨l, t, r, hts, _, hdepth, ht, _⟩ =>
    exact absurd ht (hfree t (hts ▸ mem_outside_of_append hdepth t r))

/-- The first arrow stays the first behind a token that is none, or is inside parentheses. -/
theorem IsFirstArrow.cons {place : Nat} {depth : Int} {t : Token} {ts : List Token}
    {arrow : Option Nat} (h : IsFirstArrow (place + 1) (t.depthAfter depth) ts arrow)
    (ht : ¬ (IsArrow t ∧ depth = 0)) : IsFirstArrow place depth (t :: ts) arrow := by
  have hfree : ∀ {us}, (∀ u ∈ outside (t.depthAfter depth) us, ¬ IsArrow u) →
      ∀ u ∈ outside depth (t :: us), ¬ IsArrow u := by
    intro us hus u hu
    rw [outside] at hu
    split at hu
    · rename_i hdepth
      rcases List.mem_cons.1 hu with rfl | hu
      · exact fun harrow => ht ⟨harrow, hdepth⟩
      · exact hus u hu
    · exact hus u hu
  match arrow, h with
  | none, hnone => exact hfree hnone
  | some p, ⟨l, u, r, hts, hp, hdepth, hu, hl⟩ =>
    exact ⟨t :: l, u, r, by rw [hts]; rfl, by rw [hp, List.length_cons]; omega, hdepth, hu, hfree hl⟩

/-- **Without a turnstile among the tokens there is nothing to cut at but the first arrow outside
parentheses.** -/
theorem cuts_of_no_turnstile {ts : List Token} (h : ∀ t ∈ ts, t.tag ≠ .turnstile) (place : Nat)
    (depth : Int) :
    ∃ arrow, cuts place depth ts = .ok ⟨[], arrow⟩ ∧ IsFirstArrow place depth ts arrow := by
  induction ts generalizing place depth with
  | nil => exact ⟨none, rfl, fun t ht => absurd ht List.not_mem_nil⟩
  | cons t ts ih =>
    obtain ⟨ht, hts⟩ := List.forall_mem_cons.1 h
    obtain ⟨arrow, hcuts, hfirst⟩ := ih hts (place + 1) (t.depthAfter depth)
    rw [cuts_cons_of_ne ht, hcuts]
    by_cases harrow : IsArrow t ∧ depth = 0
    · refine ⟨some place, by simp [Except.map, harrow], [], t, ts, rfl, rfl, harrow.2, harrow.1, ?_⟩
      exact fun u hu => absurd hu List.not_mem_nil
    · exact ⟨arrow, by simp [Except.map, harrow], hfirst.cons harrow⟩

/-- The cuts of a run of tokens without a turnstile and of what follows it: the turnstiles are those
of the second part, and the arrow is that of the first if it has one. -/
theorem cuts_append {l : List Token} {place : Nat} {depth : Int} {c : Cuts}
    (h : ∀ t ∈ l, t.tag ≠ .turnstile) (hl : cuts place depth l = .ok c) (r : List Token) :
    cuts place depth (l ++ r) =
      (cuts (place + l.length) (depthThrough depth l) r).map fun d =>
        ⟨d.turnstiles, c.arrow.or d.arrow⟩ := by
  induction l generalizing place depth c with
  | nil =>
    obtain rfl := Except.ok.inj hl
    rw [List.nil_append, List.length_nil, Nat.add_zero, depthThrough_nil]
    rcases cuts place depth r with e | d <;> rfl
  | cons t l ih =>
    obtain ⟨ht, htl⟩ := List.forall_mem_cons.1 h
    rw [cuts_cons_of_ne ht] at hl
    rcases hc : cuts (place + 1) (t.depthAfter depth) l with e | c'
    · rw [hc] at hl
      cases hl
    · rw [hc] at hl
      obtain rfl := Except.ok.inj hl
      rw [List.cons_append, cuts_cons_of_ne ht, ih htl hc, List.length_cons, depthThrough_cons,
        ← Nat.add_assoc, Nat.add_right_comm]
      rcases cuts (place + l.length + 1) (depthThrough (t.depthAfter depth) l) r with e | d
      · rfl
      · by_cases harrow : IsArrow t ∧ depth = 0 <;> simp [Except.map, harrow]

/-- The two sides on either side of the place at which a sequent is cut. -/
theorem ofTokens_of_cutPlace {l r : List Token} {t : Token} {c : Cuts} {L R : List Formula}
    (hcuts : cuts 0 0 (l ++ t :: r) = .ok c) (hplace : cutPlace c = .ok (some l.length))
    (hl : DerivesSide l L) (hr : DerivesSide r R) : ofTokens (l ++ t :: r) = .ok ⟨L, R⟩ := by
  have hlhs := sideOfTokens_of_derives hl
  have hrhs := sideOfTokens_of_derives hr
  simp [ofTokens, hcuts, hplace, hlhs, hrhs, bind, Except.bind, pure, Except.pure]

/-- **A sequent written with a turnstile is read back.** -/
theorem ofTokens_of_turnstile {l r : List Token} {t : Token} {L R : List Formula}
    (hl : DerivesSide l L) (ht : t.tag = .turnstile) (hr : DerivesSide r R) :
    ofTokens (l ++ t :: r) = .ok ⟨L, R⟩ := by
  obtain ⟨a, hla, -⟩ := cuts_of_no_turnstile hl.tag_ne 0 0
  obtain ⟨b, hrb, -⟩ := cuts_of_no_turnstile hr.tag_ne (l.length + 1) 0
  have hcuts : cuts 0 0 (l ++ t :: r) = .ok ⟨[l.length], a.or b⟩ := by
    rw [cuts_append hl.tag_ne hla, hl.depthThrough, Nat.zero_add, cuts_cons_turnstile ht, hrb]
    rfl
  exact ofTokens_of_cutPlace hcuts rfl hl hr

/-- **A sequent written with an arrow is read back**, if the left side holds no arrow outside
parentheses. -/
theorem ofTokens_of_arrow {l r : List Token} {t : Token} {L R : List Formula}
    (hl : DerivesSide l L) (hfree : ∀ u ∈ outside 0 l, ¬ IsArrow u) (ht : IsArrow t)
    (htag : t.tag ≠ .turnstile) (hr : DerivesSide r R) :
    ofTokens (l ++ t :: r) = .ok ⟨L, R⟩ := by
  obtain ⟨a, hla, hfirst⟩ := cuts_of_no_turnstile hl.tag_ne 0 0
  obtain rfl := hfirst.eq_none hfree
  obtain ⟨b, hrb, -⟩ := cuts_of_no_turnstile hr.tag_ne (l.length + 1) 0
  have hcuts : cuts 0 0 (l ++ t :: r) = .ok ⟨[], some l.length⟩ := by
    rw [cuts_append hl.tag_ne hla, hl.depthThrough, Nat.zero_add, cuts_cons_of_ne htag,
      depthAfter_of_ne ht.2.1 ht.2.2, hrb]
    simp [Except.map, ht]
  exact ofTokens_of_cutPlace hcuts rfl hl hr

end Sequent

end SequentCalculus
