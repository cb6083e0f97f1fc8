import IntervalCalc.Expr.Text
import IntervalCalc.Grammar.Operator
import IntervalCalc.Proofs.Interning
import IntervalCalc.Scope
import Mathlib.Data.List.Forall2

/-!
Renaming. What two interners make of one text, or of one history, differs in the handles of symbols
only: expressions have the same shape, scopes bind related symbols to related values in the same
order, and grammars have the same operators with related heads. What is shown of them is the same.
-/

namespace IntervalCalc

variable {α : Type} {R R' : Symbol → Symbol → Prop}

/-- Expressions of the same shape with related symbols. -/
inductive Expr.Renamed (R : Symbol → Symbol → Prop) : Expr α → Expr α → Prop
  | number (x : α) : Renamed R (.number x) (.number x)
  | interval (X : Interval α) : Renamed R (.interval X) (.interval X)
  | symbol {a b : Symbol} : R a b → Renamed R (.symbol a) (.symbol b)
  | unary (op : UnaryOp) {x y : Expr α} : Renamed R x y → Renamed R (.unary op x) (.unary op y)
  | binary (op : BinaryOp) {x y x' y' : Expr α} : Renamed R x y → Renamed R x' y' →
      Renamed R (.binary op x x') (.binary op y y')
  | branch {x y x' y' x'' y'' : Expr α} : Renamed R x y → Renamed R x' y' → Renamed R x'' y'' →
      Renamed R (.branch x x' x'') (.branch y y' y'')
  | composite {a b : Symbol} {xs ys : List (Expr α)} (bracket : Bracket) : R a b →
      List.Forall₂ (Renamed R) xs ys →
      Renamed R (.composite a xs bracket) (.composite b ys bracket)
  | function {a b : Symbol} {ps qs : List Symbol} {x y : Expr α} : R a b → List.Forall₂ R ps qs →
      Renamed R x y → Renamed R (.function a ps x) (.function b qs y)

namespace Expr

mutual

/-- Every symbol of an expression, at any depth. -/
def symbols : Expr α → List Symbol
  | number _ => []
  | interval _ => []
  | symbol value => [value]
  | unary _ operand => operand.symbols
  | binary _ left right => left.symbols ++ right.symbols
  | branch condition consequence alternative =>
    condition.symbols ++ consequence.symbols ++ alternative.symbols
  | composite head arguments _ => head :: symbolsOfAll arguments
  | function head parameters body => head :: parameters ++ body.symbols

def symbolsOfAll : List (Expr α) → List Symbol
  | [] => []
  | first :: rest => first.symbols ++ symbolsOfAll rest

end

mutual

/-- An expression corresponds to itself if all its symbols do. -/
theorem renamed_self : ∀ expression : Expr α,
    (∀ symbol ∈ expression.symbols, R symbol symbol) → expression.Renamed R expression
  | number x, _ => .number x
  | interval X, _ => .interval X
  | symbol value, h => .symbol (h value (by simp [symbols]))
  | unary op operand, h => .unary op (operand.renamed_self h)
  | binary op left right, h => by
      simp only [symbols, List.mem_append] at h
      exact .binary op (left.renamed_self fun s member => h s (.inl member))
        (right.renamed_self fun s member => h s (.inr member))
  | branch condition consequence alternative, h => by
      simp only [symbols, List.mem_append] at h
      exact .branch (condition.renamed_self fun s member => h s (.inl (.inl member)))
        (consequence.renamed_self fun s member => h s (.inl (.inr member)))
        (alternative.renamed_self fun s member => h s (.inr member))
  | composite head arguments bracket, h => by
      simp only [symbols, List.mem_cons] at h
      exact .composite bracket (h head (.inl rfl))
        (renamed_self_all arguments fun s member => h s (.inr member))
  | function head parameters body, h => by
      simp only [symbols, List.cons_append, List.mem_cons, List.mem_append] at h
      exact .function (h head (.inl rfl))
        (List.forall₂_same.mpr fun s member => h s (.inr (.inl member)))
        (body.renamed_self fun s member => h s (.inr (.inr member)))

theorem renamed_self_all : ∀ expressions : List (Expr α),
    (∀ symbol ∈ symbolsOfAll expressions, R symbol symbol) →
      List.Forall₂ (Renamed R) expressions expressions
  | [], _ => .nil
  | first :: rest, h => by
      simp only [symbolsOfAll, List.mem_append] at h
      exact .cons (first.renamed_self fun s member => h s (.inl member))
        (renamed_self_all rest fun s member => h s (.inr member))

end

namespace Renamed

mutual

/-- Every symbol of an expression is related to one of the other expression. -/
theorem symbols : ∀ {x y : Expr α}, x.Renamed R y → List.Forall₂ R x.symbols y.symbols
  | _, _, .number _ => .nil
  | _, _, .interval _ => .nil
  | _, _, .symbol h => .cons h .nil
  | _, _, .unary _ h => h.symbols
  | _, _, .binary _ h h' => List.rel_append h.symbols h'.symbols
  | _, _, .branch h h' h'' => List.rel_append (List.rel_append h.symbols h'.symbols) h''.symbols
  | _, _, .composite _ h hs => .cons h (symbolsOfAll hs)
  | _, _, .function h hs h' => List.rel_append (.cons h hs) h'.symbols

theorem symbolsOfAll : ∀ {xs ys : List (Expr α)}, List.Forall₂ (Renamed R) xs ys →
    List.Forall₂ R (Expr.symbolsOfAll xs) (Expr.symbolsOfAll ys)
  | _, _, .nil => .nil
  | _, _, .cons h hs => List.rel_append h.symbols (symbolsOfAll hs)

end

mutual

theorem mono (more : ∀ a b, R a b → R' a b) : ∀ {x y : Expr α}, x.Renamed R y → x.Renamed R' y
  | _, _, .number x => .number x
  | _, _, .interval X => .interval X
  | _, _, .symbol h => .symbol (more _ _ h)
  | _, _, .unary op h => .unary op (h.mono more)
  | _, _, .binary op h h' => .binary op (h.mono more) (h'.mono more)
  | _, _, .branch h h' h'' => .branch (h.mono more) (h'.mono more) (h''.mono more)
  | _, _, .composite bracket h hs => .composite bracket (more _ _ h) (mono_all more hs)
  | _, _, .function h hs h' => .function (more _ _ h) (hs.imp more) (h'.mono more)

theorem mono_all (more : ∀ a b, R a b → R' a b) : ∀ {xs ys : List (Expr α)},
    List.Forall₂ (Renamed R) xs ys → List.Forall₂ (Renamed R') xs ys
  | _, _, .nil => .nil
  | _, _, .cons h hs => .cons (h.mono more) (mono_all more hs)

end

theorem parameters (names : ∀ a b, R a b → a.name = b.name) {ps qs : List Symbol}
    (related : List.Forall₂ R ps qs) : ps.map (·.name) = qs.map (·.name) := by
  rw [← List.forall₂_eq_eq_eq]
  exact List.rel_map names related

mutual

/-- The shown text has the names of the symbols, not their handles. -/
theorem text [Numeral α] (names : ∀ a b, R a b → a.name = b.name) :
    ∀ {x y : Expr α}, x.Renamed R y → x.text = y.text
  | _, _, .number _ => rfl
  | _, _, .interval _ => rfl
  | _, _, .symbol h => names _ _ h
  | _, _, .unary _ h => by rw [Expr.text, Expr.text, h.text names]
  | _, _, .binary _ h h' => by rw [Expr.text, Expr.text, h.text names, h'.text names]
  | _, _, .branch h h' h'' => by
      rw [Expr.text, Expr.text, h.text names, h'.text names, h''.text names]
  | _, _, .composite _ h hs => by rw [Expr.text, Expr.text, names _ _ h, texts names hs]
  | _, _, .function h hs h' => by
      rw [Expr.text, Expr.text, names _ _ h, parameters names hs, h'.text names]

theorem texts [Numeral α] (names : ∀ a b, R a b → a.name = b.name) :
    ∀ {xs ys : List (Expr α)}, List.Forall₂ (Renamed R) xs ys → Expr.texts xs = Expr.texts ys
  | _, _, .nil => rfl
  | _, _, .cons h hs => by rw [Expr.texts, Expr.texts, h.text names, texts names hs]

end

theorem kind {x y : Expr α} (h : x.Renamed R y) : x.kind = y.kind := by
  cases h <;> rfl

theorem isTrue [Scalar α] {x y : Expr α} (h : x.Renamed R y) : x.isTrue = y.isTrue := by
  cases h <;> rfl

end Renamed

end Expr

section Lists

variable {β γ : Type} {V : β → γ → Prop} {xs : List β} {ys : List γ}

theorem exists_related_left (h : List.Forall₂ V xs ys) {x : β} (member : x ∈ xs) :
    ∃ y ∈ ys, V x y := by
  induction h with
  | nil => cases member
  | @cons first first' rest rest' related _ ih =>
      rcases List.mem_cons.mp member with rfl | later
      · exact ⟨first', List.mem_cons_self, related⟩
      · obtain ⟨y, among, related⟩ := ih later
        exact ⟨y, List.mem_cons_of_mem _ among, related⟩

theorem exists_related_right (h : List.Forall₂ V xs ys) {y : γ} (member : y ∈ ys) :
    ∃ x ∈ xs, V x y :=
  exists_related_left (V := fun y x => V x y) h.flip member

theorem related_getElem? (h : List.Forall₂ V xs ys) (index : Nat) :
    Option.Rel V xs[index]? ys[index]? := by
  induction h generalizing index with
  | nil => exact .none
  | cons first _ ih =>
      cases index with
      | zero => exact .some first
      | succ index => exact ih index

end Lists

namespace OrderedMap

variable {κ κ' ν ν' : Type} {K : κ → κ' → Prop} {V V' : ν → ν' → Prop}

/-- Maps of related keys to related values, in the same order. -/
def Related (K : κ → κ' → Prop) (V : ν → ν' → Prop) (map : OrderedMap κ ν)
    (other : OrderedMap κ' ν') : Prop :=
  List.Forall₂ (fun entry entry' => K entry.1 entry'.1 ∧ V entry.2 entry'.2) map.entries
    other.entries

namespace Related

variable {map : OrderedMap κ ν} {other : OrderedMap κ' ν'}

theorem empty : Related K V (.empty : OrderedMap κ ν) (.empty : OrderedMap κ' ν') :=
  .nil

theorem imp {K' : κ → κ' → Prop} (h : Related K V map other) (keys : ∀ k k', K k k' → K' k k')
    (values : ∀ v v', V v v' → V' v v') : Related K' V' map other :=
  List.Forall₂.imp (fun _ _ both => ⟨keys _ _ both.1, values _ _ both.2⟩) h

theorem keys (h : Related K V map other) : List.Forall₂ K map.keys other.keys :=
  List.rel_map (fun _ _ both => both.1) h

variable [BEq κ] [BEq κ']
variable (same : ∀ {k l k' l'}, K k k' → K l l' → (k == l) = (k' == l'))

include same

theorem find? (h : Related K V map other) {k : κ} {k' : κ'} (key : K k k') :
    Option.Rel V (map.find? k) (other.find? k') := by
  unfold Related at h
  unfold OrderedMap.find?
  generalize map.entries = entries at h
  generalize other.entries = entries' at h
  induction h with
  | nil => exact .none
  | @cons entry entry' rest rest' both _ ih =>
      rw [List.lookup_cons, List.lookup_cons, same key both.1]
      cases k' == entry'.1 with
      | true => exact .some both.2
      | false => exact ih

theorem contains (h : Related K V map other) {k : κ} {k' : κ'} (key : K k k') :
    map.contains k = other.contains k' := by
  have found := h.find? same key
  unfold OrderedMap.contains
  generalize map.find? k = value at found
  generalize other.find? k' = value' at found
  cases found <;> rfl

theorem insert (h : Related K V map other) {k : κ} {k' : κ'} (key : K k k') {v : ν} {v' : ν'}
    (value : V v v') : Related K V (map.insert k v) (other.insert k' v') := by
  unfold OrderedMap.insert
  rw [h.contains same key]
  split
  · refine List.rel_map (fun entry entry' both => ?_) h
    rw [same both.1 key]
    split
    · exact ⟨both.1, value⟩
    · exact both
  · exact List.rel_append h (.cons ⟨key, value⟩ .nil)

theorem erase (h : Related K V map other) {k : κ} {k' : κ'} (key : K k k') :
    Related K V (map.erase k) (other.erase k') := by
  refine List.rel_filter (fun entry entry' both => ?_) h
  dsimp only
  rw [same both.1 key]

end Related

end OrderedMap

/-- Frames that bind related symbols to related expressions, in the same order. -/
def Frame.Renamed (R : Symbol → Symbol → Prop) (frame other : Frame α) : Prop :=
  OrderedMap.Related R (Expr.Renamed R) frame other

/-- Chains of frames that bind related symbols to related expressions. -/
structure Scope.Renamed (R : Symbol → Symbol → Prop) (s t : Scope α) : Prop where
  inner : s.inner.Renamed R t.inner
  outer : List.Forall₂ (Frame.Renamed R) s.outer t.outer

namespace Scope.Renamed

variable {s t : Scope α}

theorem mono (more : ∀ a b, R a b → R' a b) (h : s.Renamed R t) : s.Renamed R' t := by
  have frames : ∀ frame other : Frame α, frame.Renamed R other → frame.Renamed R' other :=
    fun _ _ related => related.imp more fun _ _ value => value.mono more
  exact ⟨frames _ _ h.inner, h.outer.imp frames⟩

theorem empty : (.empty : Scope α).Renamed R .empty :=
  ⟨.nil, .nil⟩

theorem push (h : s.Renamed R t) {frame other : Frame α} (hf : frame.Renamed R other) :
    (s.push frame).Renamed R (t.push other) :=
  ⟨hf, .cons h.inner h.outer⟩

theorem pop (h : s.Renamed R t) : s.pop.Renamed R t.pop := by
  obtain ⟨inner, outer⟩ := s
  obtain ⟨inner', outer'⟩ := t
  obtain ⟨related, outside⟩ := h
  cases outside with
  | nil => exact ⟨related, .nil⟩
  | cons first rest => exact ⟨first, rest⟩

variable (pairing : Symbol.Pairing R)

include pairing

theorem get? (h : s.Renamed R t) {a b : Symbol} (symbol : R a b) :
    Option.Rel (Expr.Renamed R) (s.get? a) (t.get? b) := by
  have frames : List.Forall₂ (Frame.Renamed R) (s.inner :: s.outer) (t.inner :: t.outer) :=
    .cons h.inner h.outer
  unfold Scope.get?
  generalize s.inner :: s.outer = chain at frames
  generalize t.inner :: t.outer = chain' at frames
  induction frames with
  | nil => exact .none
  | @cons frame other _ _ related _ ih =>
      rw [List.findSome?_cons, List.findSome?_cons]
      have found := OrderedMap.Related.find? pairing.beq related symbol
      generalize frame.find? a = value at found
      generalize other.find? b = value' at found
      cases found with
      | some h => exact .some h
      | none => exact ih

theorem set (h : s.Renamed R t) {a b : Symbol} (symbol : R a b) {x y : Expr α}
    (value : x.Renamed R y) : (s.set a x).Renamed R (t.set b y) :=
  ⟨h.inner.insert pairing.beq symbol value, h.outer⟩

theorem remove (h : s.Renamed R t) {a b : Symbol} (symbol : R a b) :
    (s.remove a).Renamed R (t.remove b) :=
  ⟨h.inner.erase pairing.beq symbol, h.outer⟩

end Scope.Renamed

/-- Frames for related arguments under related parameters. -/
theorem Frame.Renamed.ofArguments (pairing : Symbol.Pairing R) {ps qs : List Symbol}
    {xs ys : List (Expr α)} (parameters : List.Forall₂ R ps qs)
    (arguments : List.Forall₂ (Expr.Renamed R) xs ys) :
    (Frame.ofArguments ps xs).Renamed R (Frame.ofArguments qs ys) := by
  have entries : List.Forall₂ (fun entry entry' : Symbol × Expr α =>
      R entry.1 entry'.1 ∧ entry.2.Renamed R entry'.2) (ps.zip xs) (qs.zip ys) := by
    induction parameters generalizing xs ys with
    | nil => exact .nil
    | cons h _ ih =>
        cases arguments with
        | nil => exact .nil
        | cons h' rest => exact .cons ⟨h, h'⟩ (ih rest)
  unfold Frame.ofArguments
  refine List.rel_foldl (fun frame other related entry entry' both => ?_) OrderedMap.Related.empty
    entries
  exact OrderedMap.Related.insert pairing.beq related both.1 both.2

/-- The function that an operator calls. -/
def PrefixRule.head? : PrefixRule → Option Symbol
  | apply head _ => some head
  | _ => none

def InfixRule.head? : InfixRule → Option Symbol
  | apply head => some head
  | _ => none

def Operator.heads (operator : Operator) : List Symbol :=
  (operator.prefixRule.bind (·.head?)).toList ++ (operator.infixRule.bind (·.head?)).toList

def OperatorTable.heads (operators : OperatorTable) : List Symbol :=
  operators.entries.flatMap (·.2.heads)

/-- Rules that call related functions, or the same rule if it calls none. -/
inductive PrefixRule.Renamed (R : Symbol → Symbol → Prop) : PrefixRule → PrefixRule → Prop
  | apply {a b : Symbol} (power : Power) : R a b → Renamed R (.apply a power) (.apply b power)
  | same {rule : PrefixRule} : rule.head? = none → Renamed R rule rule

inductive InfixRule.Renamed (R : Symbol → Symbol → Prop) : InfixRule → InfixRule → Prop
  | apply {a b : Symbol} : R a b → Renamed R (.apply a) (.apply b)
  | same {rule : InfixRule} : rule.head? = none → Renamed R rule rule

theorem PrefixRule.Renamed.mono (more : ∀ a b, R a b → R' a b) {rule other : PrefixRule}
    (h : rule.Renamed R other) : rule.Renamed R' other := by
  cases h with
  | apply power h => exact .apply power (more _ _ h)
  | same none => exact .same none

theorem InfixRule.Renamed.mono (more : ∀ a b, R a b → R' a b) {rule other : InfixRule}
    (h : rule.Renamed R other) : rule.Renamed R' other := by
  cases h with
  | apply h => exact .apply (more _ _ h)
  | same none => exact .same none

structure Operator.Renamed (R : Symbol → Symbol → Prop) (operator other : Operator) : Prop where
  leftPower : operator.leftPower = other.leftPower
  prefixRule : Option.Rel (PrefixRule.Renamed R) operator.prefixRule other.prefixRule
  infixRule : Option.Rel (InfixRule.Renamed R) operator.infixRule other.infixRule

/-- Tables of the same names in the same order, with operators that differ in their heads only. -/
def OperatorTable.Renamed (R : Symbol → Symbol → Prop) (operators others : OperatorTable) : Prop :=
  OrderedMap.Related Eq (Operator.Renamed R) operators others

theorem Operator.Renamed.mono (more : ∀ a b, R a b → R' a b) {operator other : Operator}
    (h : operator.Renamed R other) : operator.Renamed R' other := by
  obtain ⟨power, standing, following⟩ := operator
  obtain ⟨power', standing', following'⟩ := other
  obtain ⟨powers, standings, followings⟩ := h
  refine ⟨powers, ?_, ?_⟩
  · cases standings with
    | some h => exact .some (h.mono more)
    | none => exact .none
  · cases followings with
    | some h => exact .some (h.mono more)
    | none => exact .none

theorem PrefixRule.Renamed.head? {rule other : PrefixRule} (h : rule.Renamed R other) :
    List.Forall₂ R rule.head?.toList other.head?.toList := by
  cases h with
  | apply power h => exact .cons h .nil
  | same none => rw [none]; exact .nil

theorem InfixRule.Renamed.head? {rule other : InfixRule} (h : rule.Renamed R other) :
    List.Forall₂ R rule.head?.toList other.head?.toList := by
  cases h with
  | apply h => exact .cons h .nil
  | same none => rw [none]; exact .nil

theorem Operator.Renamed.heads {operator other : Operator} (h : operator.Renamed R other) :
    List.Forall₂ R operator.heads other.heads := by
  obtain ⟨power, standing, following⟩ := operator
  obtain ⟨power', standing', following'⟩ := other
  obtain ⟨_, standings, followings⟩ := h
  refine List.rel_append ?_ ?_
  · cases standings with
    | some h => exact h.head?
    | none => exact .nil
  · cases followings with
    | some h => exact h.head?
    | none => exact .nil

theorem Operator.Renamed.self {operator : Operator} (h : ∀ head ∈ operator.heads, R head head) :
    operator.Renamed R operator := by
  obtain ⟨power, standing, following⟩ := operator
  simp only [Operator.heads, List.mem_append] at h
  refine ⟨rfl, ?_, ?_⟩
  · cases standing with
    | none => exact .none
    | some rule =>
        refine .some ?_
        cases rule with
        | apply head power => exact .apply power (h head (.inl (by simp [PrefixRule.head?])))
        | _ => exact .same rfl
  · cases following with
    | none => exact .none
    | some rule =>
        refine .some ?_
        cases rule with
        | apply head => exact .apply (h head (.inr (by simp [InfixRule.head?])))
        | _ => exact .same rfl

namespace OperatorTable.Renamed

variable {operators others : OperatorTable}

theorem mono (more : ∀ a b, R a b → R' a b) (h : operators.Renamed R others) :
    operators.Renamed R' others :=
  h.imp (fun _ _ same => same) fun _ _ related => related.mono more

/-- A table corresponds to itself if the functions that its operators call do. -/
theorem self (h : ∀ head ∈ operators.heads, R head head) : operators.Renamed R operators := by
  refine List.forall₂_same.mpr fun entry member => ⟨rfl, ?_⟩
  exact .self fun head called => h head (List.mem_flatMap.mpr ⟨entry, member, called⟩)

theorem heads (h : operators.Renamed R others) : List.Forall₂ R operators.heads others.heads :=
  List.rel_flatMap h fun _ _ both => both.2.heads

theorem keys (h : operators.Renamed R others) : operators.keys = others.keys := by
  rw [← List.forall₂_eq_eq_eq]
  exact OrderedMap.Related.keys h

theorem find? (h : operators.Renamed R others) (name : String) :
    Option.Rel (Operator.Renamed R) (operators.find? name) (others.find? name) :=
  OrderedMap.Related.find? (fun same same' => by rw [same, same']) h rfl

theorem insert (h : operators.Renamed R others) (name : String) {operator other : Operator}
    (related : operator.Renamed R other) :
    OperatorTable.Renamed R (operators.insert name operator) (others.insert name other) :=
  OrderedMap.Related.insert (fun same same' => by rw [same, same']) h rfl related

end OperatorTable.Renamed

end IntervalCalc
