import Formulary.Proofs.Distinguishing
import Formulary.Proofs.Heads

namespace Formulary

theorem Text.isNameText_of_isLexeme {name : String}
    (h : Token.isLexeme .identifier name = true) : isNameText name = true := by
  obtain ⟨c, cs, htext, hscan⟩ := Token.isLexeme_iff.1 h
  have hlexeme := Token.lexeme_of_scanLexeme hscan
  generalize hkind : Token.Kind.identifier = kind, hchars : c :: cs = text, hrest : [] = rest
    at hlexeme
  cases hlexeme with
  | name hstart =>
      exact isNameText_iff.2 ⟨c, cs, htext, hstart, List.dropWhile_eq_nil_iff.1 hrest.symm⟩
  | number | string => cases hkind
  | symbol htextless =>
      subst hkind
      cases htextless

namespace Ty

mutual

/-- Whether a type is made of variables, literals, functions and data types only. -/
def isPlain : Ty → Bool
  | .blank | .prim _ | .poly _ _ => false
  | .nat _ | .tag _ | .var _ => true
  | .data _ _ args => isPlainList args
  | .fn a b => a.isPlain && b.isPlain

def isPlainList : List Ty → Bool
  | [] => true
  | t :: ts => t.isPlain && isPlainList ts

end

/-- Names are identifiers. A variant of the type of types goes by its constructor, and every other
data type by its own name, which its constructor repeats; no name is used both ways. -/
structure Unmixed (heads : List Head) : Prop where
  variant : ∀ h ∈ heads, h.name = metaName → Token.isLexeme .identifier h.constructor = true
  data : ∀ h ∈ heads, h.name ≠ metaName →
    Token.isLexeme .identifier h.name = true ∧ h.constructor = h.name
  apart : ∀ h ∈ heads, h.name = metaName → ∀ h' ∈ heads, h'.name ≠ metaName →
    h.constructor ≠ h'.name

section

variable {heads : List Head}

/-- The names of some data types, with any number of arguments. -/
def NodeOf (heads : List Head) (node : Node) (_ : Nat) : Prop :=
  ∃ h ∈ heads, node = .data h.name h.constructor

theorem Unmixed.telling (hnames : Unmixed heads) : Telling (NodeOf heads) where
  isNameText := by
    rintro _ n ⟨h, hmem, rfl⟩
    simp only [Node.text]
    split
    · rename_i hname
      exact Text.isNameText_of_isLexeme (hnames.variant h hmem hname)
    · rename_i hname
      exact Text.isNameText_of_isLexeme (hnames.data h hmem hname).1
  unique := by
    rintro _ _ n ⟨h, hmem, rfl⟩ ⟨h', hmem', rfl⟩ htext
    simp only [Node.text] at htext
    split at htext <;> rename_i hname <;> split at htext <;> rename_i hname'
    · rw [hname, hname', htext]
    · exact absurd htext (hnames.apart h hmem hname h' hmem' hname')
    · exact absurd htext.symm (hnames.apart h' hmem' hname' h hmem hname)
    · rw [(hnames.data h hmem hname).2, (hnames.data h' hmem' hname').2, htext]

mutual

theorem spelled_of_isPlain {t : Ty} (ht : t.isPlain = true) (hheads : t.heads ⊆ heads) :
    t.Spelled (NodeOf heads) fun _ => True := by
  cases t with
  | blank | prim | poly => cases ht
  | nat | tag | var => trivial
  | data name constructor args =>
      rw [Ty.heads, List.cons_subset] at hheads
      exact ⟨⟨_, hheads.1, rfl⟩, spelledList_of_isPlainList ht hheads.2⟩
  | fn a b =>
      rw [isPlain, Bool.and_eq_true] at ht
      rw [Ty.heads, List.append_subset] at hheads
      exact ⟨spelled_of_isPlain ht.1 hheads.1, spelled_of_isPlain ht.2 hheads.2⟩

theorem spelledList_of_isPlainList {ts : List Ty} (hts : isPlainList ts = true)
    (hheads : headsList ts ⊆ heads) : SpelledList (NodeOf heads) (fun _ => True) ts := by
  match ts with
  | [] => trivial
  | t :: ts =>
      rw [isPlainList, Bool.and_eq_true] at hts
      rw [headsList, List.append_subset] at hheads
      exact ⟨spelled_of_isPlain hts.1 hheads.1, spelledList_of_isPlainList hts.2 hheads.2⟩

end

end

theorem render_eq_iff {N : Node → Nat → Prop} (hN : Telling N) {W : Int → Prop} {t u : Ty}
    (ht : t.Spelled N W) (hu : u.Spelled N W) :
    t.render = u.render ↔ ∃ ρ : Equiv.Perm Int, t.rename ρ = u := by
  constructor
  · intro h
    have hindex : ∀ ids x, 0 ≤ index ids x := fun ids x => Int.natCast_nonneg _
    have hend : Follows [')', ','] [] := fun c hc => by cases hc
    rw [render_eq_renderWith_index, render_eq_renderWith_index] at h
    have ht₁ := spelled_rename (hindex t.mentions) t ht
    have hu₁ := spelled_rename (hindex u.mentions) u hu
    have htells := (tells hN (V := (0 ≤ ·)) (fun _ h => h) _ ht₁).2
    refine exists_perm_of_index (htells _ [] [] hu₁ hend hend ?_).1
    rw [h]
  · rintro ⟨ρ, rfl⟩
    exact (render_rename (ρ := ρ) t).symm

/-- Types without quantifiers and primitive kinds, over data types whose names are not mixed up, are
printed alike if and only if a renaming of all variables makes the one the other, however many they
are. -/
theorem printed_alike_iff {a b : Ty} (ha : a.isPlain = true) (hb : b.isPlain = true)
    (hnames : Unmixed (a.heads ++ b.heads)) :
    a.render = b.render ↔ ∃ ρ : Equiv.Perm Int, a.rename ρ = b :=
  render_eq_iff hnames.telling (spelled_of_isPlain ha (List.subset_append_left ..))
    (spelled_of_isPlain hb (List.subset_append_right ..))

/-- A function of some variables, numbered on from the first. -/
def chain (first : Int) : Nat → Ty
  | 0 => .var first
  | n + 1 => .fn (.var first) (chain (first + 1) n)

theorem rename_chain (d first : Int) (n : Nat) :
    (chain first n).rename (Equiv.addRight d) = chain (first + d) n := by
  induction n generalizing first with
  | zero => rfl
  | succ n ih => rw [chain, rename, ih, chain, add_right_comm]; rfl

theorem heads_chain (first : Int) (n : Nat) : (chain first n).heads = [] := by
  induction n generalizing first with
  | zero => rfl
  | succ n ih => rw [chain, heads, ih, heads, List.append_nil]

/-- A function that takes a function of a hundred and thirty variables and gives a pair of two. -/
def wide (first x y : Int) : Ty := .fn (chain first 129) (.data "Pair" "Pair" [.var x, .var y])

theorem printed_alike_iff_wide :
    (wide 0 128 129).render = (wide 1000 1128 1129).render ∧
      (wide 0 128 129).render ≠ (wide 0 129 129).render := by
  have hnames (first x y : Int) : Unmixed ((wide 0 128 129).heads ++ (wide first x y).heads) := by
    simp only [wide, heads, heads_chain]
    change Unmixed [⟨"Pair", "Pair", 2⟩, ⟨"Pair", "Pair", 2⟩]
    constructor <;> decide
  constructor
  · refine (printed_alike_iff rfl rfl (hnames 1000 1128 1129)).2 ⟨Equiv.addRight 1000, ?_⟩
    rw [wide, rename, rename_chain]
    rfl
  · intro h
    obtain ⟨ρ, hρ⟩ := (printed_alike_iff rfl rfl (hnames 0 129 129)).1 h
    injection hρ with _ hpair
    injection hpair with _ _ hargs
    injection hargs with hx hrest
    injection hrest with hy
    injection hx with hx
    injection hy with hy
    exact absurd (ρ.injective (hx.trans hy.symm)) (by decide)

end Ty

end Formulary
