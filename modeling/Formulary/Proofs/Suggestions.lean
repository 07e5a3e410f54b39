import Formulary.Proofs.EditDistance
import Formulary.Proofs.Unquoting
import Formulary.SortedMap

namespace Formulary.Text

theorem encodes_utf8EncodeChar (c : Char) : Encodes (String.utf8EncodeChar c) (.char c) := by
  have hmax := toNat_lt c
  have hvalid : c.toNat < 0xd800 ∨ 0xdfff < c.toNat := c.valid.imp id And.left
  have hvalue : c.val.toNat = c.toNat := rfl
  have hc {n : Nat} (h : n = c.toNat) : c = Char.ofNat n := by
    rw [h, Char.ofNat_toNat]
  simp only [String.utf8EncodeChar, hvalue]
  generalize c.toNat = n at *
  split
  · refine .one ?_ (hc ?_)
    · simp [UInt8.lt_iff_toNat_lt]
      omega
    · simp
      omega
  split
  · refine .two ?_ (hc ?_)
    · simp [isTwoByte, isContinuation_iff, UInt8.le_iff_toNat_le]
      omega
    · simp [joinPayload]
      omega
  split
  · refine .three ?_ (hc ?_)
    · simp [isThreeByte, isContinuation_iff, UInt8.le_iff_toNat_le, ← UInt8.toNat_inj]
      omega
    · simp [joinPayload]
      omega
  · refine .four ?_ (hc ?_)
    · simp [isFourByte, isContinuation_iff, UInt8.le_iff_toNat_le, ← UInt8.toNat_inj]
      omega
    · simp [joinPayload]
      omega

theorem Encodes.append_lt {bytes bytes' : List UInt8} {c d : Char} (hc : Encodes bytes (.char c))
    (hd : Encodes bytes' (.char d)) (h : c < d) (more more' : List UInt8) :
    bytes ++ more < bytes' ++ more' := by
  have hlt : c.toNat < d.toNat := h
  have hmax := toNat_lt d
  obtain ⟨a, rfl, hc, hbounds⟩ | ⟨a, b, rfl, hc, hbounds⟩ | ⟨a, b, e, rfl, hc, hbounds⟩ |
    ⟨a, b, e, f, rfl, hc, hbounds⟩ := hc.toNat_eq <;>
  obtain ⟨a', rfl, hd, hbounds'⟩ | ⟨a', b', rfl, hd, hbounds'⟩ |
    ⟨a', b', e', rfl, hd, hbounds'⟩ | ⟨a', b', e', f', rfl, hd, hbounds'⟩ := hd.toNat_eq <;>
  simp only [List.cons_append, List.cons_lt_cons_iff, UInt8.lt_iff_toNat_lt, ← UInt8.toNat_inj] <;>
  omega

theorem append_lt_append_iff {bytes more more' : List UInt8} :
    bytes ++ more < bytes ++ more' ↔ more < more' := by
  induction bytes with
  | nil => rfl
  | cons b bytes ih => simp [ih]

theorem flatMap_utf8EncodeChar_lt {cs ds : List Char} (h : cs < ds) :
    cs.flatMap String.utf8EncodeChar < ds.flatMap String.utf8EncodeChar := by
  induction cs generalizing ds with
  | nil =>
      cases ds with
      | nil => exact absurd h (List.not_lt_nil _)
      | cons d ds =>
          obtain ⟨b, rest, hbytes⟩ := List.exists_cons_of_length_pos
            (encodes_utf8EncodeChar d).length_pos
          rw [List.flatMap_nil, List.flatMap_cons, hbytes]
          exact List.nil_lt_cons b _
  | cons c cs ih =>
      cases ds with
      | nil => exact absurd h (List.not_lt_nil _)
      | cons d ds =>
          rw [List.flatMap_cons, List.flatMap_cons]
          rcases List.cons_lt_cons_iff.1 h with hlt | ⟨rfl, hrest⟩
          · exact (encodes_utf8EncodeChar c).append_lt (encodes_utf8EncodeChar d) hlt _ _
          · exact append_lt_append_iff.2 (ih hrest)

theorem encodeUtf8_eq_flatMap (s : String) :
    encodeUtf8 s = s.toList.flatMap String.utf8EncodeChar := by
  have hbytes : s.toUTF8 = (s.toList.flatMap String.utf8EncodeChar).toByteArray := by
    conv => lhs; rw [← String.ofList_toList (s := s)]
    rfl
  rw [encodeUtf8, hbytes, ByteArray.toList, toList_loop]
  simp

theorem encodeUtf8_lt_iff {s t : String} : encodeUtf8 s < encodeUtf8 t ↔ s < t := by
  have mono {s t : String} (h : s < t) : encodeUtf8 s < encodeUtf8 t := by
    rw [encodeUtf8_eq_flatMap, encodeUtf8_eq_flatMap]
    exact flatMap_utf8EncodeChar_lt (String.lt_iff_toList_lt.1 h)
  refine ⟨fun h => ?_, mono⟩
  obtain hlt | rfl | hgt := KeyOrder.trichotomy s t
  · exact hlt
  · exact absurd h (List.lt_irrefl _)
  · exact absurd h (List.lt_asymm (mono hgt))

/-- Whether a candidate may be suggested for a name: it is another name, and at most half of the name
has to change. -/
def Near (name candidate : String) : Prop :=
  candidate ≠ name ∧ editDistance name candidate ≤ name.toList.length / 2

/-- One candidate is closer to a name than another, or as close and before it in bytewise order. -/
def Closer (name candidate other : String) : Prop :=
  editDistance name candidate < editDistance name other ∨
    editDistance name candidate = editDistance name other ∧ encodeUtf8 candidate < encodeUtf8 other

theorem Closer.trans {name c d e : String} (h : Closer name c d) (h' : Closer name d e) :
    Closer name c e := by
  obtain h | ⟨h, hbytes⟩ := h <;> obtain h' | ⟨h', hbytes'⟩ := h'
  · exact .inl (Nat.lt_trans h h')
  · exact .inl (h' ▸ h)
  · exact .inl (h ▸ h')
  · exact .inr ⟨h.trans h', List.lt_trans hbytes hbytes'⟩

theorem not_closer_self (name c : String) : ¬ Closer name c c := by
  rintro (h | ⟨-, h⟩)
  · exact Nat.lt_irrefl _ h
  · exact List.lt_irrefl _ h

theorem closer_trichotomy (name c d : String) : Closer name c d ∨ c = d ∨ Closer name d c := by
  obtain h | h | h := Nat.lt_trichotomy (editDistance name c) (editDistance name d)
  · exact .inl (.inl h)
  · obtain h' | rfl | h' := KeyOrder.trichotomy c d
    · exact .inl (.inr ⟨h, encodeUtf8_lt_iff.2 h'⟩)
    · exact .inr (.inl rfl)
    · exact .inr (.inr (.inr ⟨h.symm, encodeUtf8_lt_iff.2 h'⟩))
  · exact .inr (.inr (.inl h))

/-- The candidate to suggest: the closest of those that are near enough. -/
structure IsClosest (name : String) (candidates : List String) (best : String) : Prop where
  mem : best ∈ candidates
  near : Near name best
  closer : ∀ candidate ∈ candidates, Near name candidate → candidate ≠ best →
    Closer name best candidate

theorem IsClosest.unique {name best best' : String} {candidates : List String}
    (h : IsClosest name candidates best) (h' : IsClosest name candidates best') : best = best' := by
  by_contra hne
  exact not_closer_self name best
    ((h.closer best' h'.mem h'.near (Ne.symm hne)).trans (h'.closer best h.mem h.near hne))

/-- What the scan has found after some candidates: the closest of them, with its distance, or none of
them near enough, with the first distance that is too much. -/
def Found (name : String) (seen : List String) (state : String × Nat) : Prop :=
  (IsClosest name seen state.1 ∧ state.2 = editDistance name state.1) ∨
    ((∀ candidate ∈ seen, ¬ Near name candidate) ∧ state = ("", name.toList.length / 2 + 1))

theorem not_near_empty (name : String) : ¬ Near name "" := by
  rintro ⟨hne, hdistance⟩
  have hlength : editDistance name "" = name.toList.length := by
    rw [editDistance_eq_levenshtein, String.toList_empty, levenshtein_nil_right]
  have hnil : name.toList = [] := List.eq_nil_of_length_eq_zero (by omega)
  exact hne (String.toList_inj.1 (by rw [hnil, String.toList_empty]))

theorem IsClosest.skip {name best candidate : String} {seen : List String}
    (h : IsClosest name seen best)
    (hskip : Near name candidate → candidate ≠ best → Closer name best candidate) :
    IsClosest name (seen ++ [candidate]) best where
  mem := List.mem_append_left _ h.mem
  near := h.near
  closer other hmem hnear hne := by
    rcases List.mem_append.1 hmem with hmem | hmem
    · exact h.closer other hmem hnear hne
    · obtain rfl := List.mem_singleton.1 hmem
      exact hskip hnear hne

/-- One more candidate. That none has been found yet is no exception for candidates at the same
distance, since no text is before the empty one. -/
theorem Found.step {name : String} {seen : List String} {state : String × Nat}
    (h : Found name seen state) (candidate : String) :
    Found name (seen ++ [candidate]) (suggest.step name state candidate) := by
  obtain ⟨best, bound⟩ := state
  unfold suggest.step
  dsimp only
  split
  case isTrue hname =>
    have hfar : ¬ Near name candidate := fun hnear => hnear.1 hname
    rcases h with ⟨hbest, hbound⟩ | ⟨hnone, hstate⟩
    · exact .inl ⟨hbest.skip fun hnear => absurd hnear hfar, hbound⟩
    · exact .inr ⟨List.forall_mem_append.2 ⟨hnone, by simpa using hfar⟩, hstate⟩
  case isFalse hname =>
    rcases h with ⟨hbest, hbound⟩ | ⟨hnone, hstate⟩
    · have hnonempty : best ≠ "" := fun heq => not_near_empty name (heq ▸ hbest.near)
      obtain rfl : bound = editDistance name best := hbound
      split
      case isTrue hcloser =>
        have hcloser : Closer name candidate best :=
          hcloser.imp id fun h => ⟨h.1, encodeUtf8_lt_iff.2 h.2.2⟩
        have hnear : Near name candidate :=
          ⟨hname, Nat.le_trans (hcloser.elim Nat.le_of_lt (·.1.le)) hbest.near.2⟩
        refine .inl ⟨⟨by simp, hnear, fun other hmem hother hne => ?_⟩, rfl⟩
        rcases List.mem_append.1 hmem with hmem | hmem
        · by_cases heq : other = best
          · exact heq ▸ hcloser
          · exact hcloser.trans (hbest.closer other hmem hother heq)
        · exact absurd (List.mem_singleton.1 hmem) hne
      case isFalse hcloser =>
        refine .inl ⟨hbest.skip fun _ hne => ?_, rfl⟩
        obtain h | heq | h := closer_trichotomy name best candidate
        · exact h
        · exact absurd heq.symm hne
        · exact absurd (h.imp id fun h => ⟨h.1, hnonempty, encodeUtf8_lt_iff.1 h.2⟩) hcloser
    · obtain ⟨rfl, rfl⟩ := Prod.mk.inj hstate
      split
      case isTrue hcloser =>
        have hnear : Near name candidate := ⟨hname, by simp at hcloser; omega⟩
        refine .inl ⟨⟨by simp, hnear, fun other hmem hother hne => ?_⟩, rfl⟩
        rcases List.mem_append.1 hmem with hmem | hmem
        · exact absurd hother (hnone other hmem)
        · exact absurd (List.mem_singleton.1 hmem) hne
      case isFalse hcloser =>
        have hfar : ¬ Near name candidate := fun hnear =>
          hcloser (.inl (Nat.lt_succ_of_le hnear.2))
        exact .inr ⟨List.forall_mem_append.2 ⟨hnone, by simpa using hfar⟩, rfl⟩

theorem Found.foldl {name : String} {seen : List String} {state : String × Nat}
    (h : Found name seen state) (candidates : List String) :
    Found name (seen ++ candidates) (candidates.foldl (suggest.step name) state) := by
  induction candidates generalizing seen state with
  | nil => simpa using h
  | cons candidate rest ih => simpa using ih (h.step candidate)

theorem suggest_eq_iff {name : String} {candidates : List String} {s : String} :
    suggest name candidates = s ↔
      IsClosest name candidates s ∨ s = "" ∧ ∀ candidate ∈ candidates, ¬ Near name candidate := by
  have hstart : Found name [] ("", name.toList.length / 2 + 1) := .inr ⟨by simp, rfl⟩
  have hfound := hstart.foldl candidates
  rw [List.nil_append] at hfound
  have hsuggest : suggest name candidates =
      (candidates.foldl (suggest.step name) ("", name.toList.length / 2 + 1)).1 := rfl
  rw [hsuggest]
  obtain ⟨hbest, -⟩ | ⟨hnone, hstate⟩ := hfound
  · constructor
    · rintro rfl
      exact .inl hbest
    · rintro (h | ⟨-, hnone⟩)
      · exact hbest.unique h
      · exact absurd hbest.near (hnone _ hbest.mem)
  · rw [hstate]
    constructor
    · rintro rfl
      exact .inr ⟨rfl, hnone⟩
    · rintro (h | ⟨rfl, -⟩)
      · exact absurd h.near (hnone _ h.mem)
      · rfl

theorem suggest_congr (name : String) {candidates candidates' : List String}
    (h : ∀ candidate, candidate ∈ candidates ↔ candidate ∈ candidates') :
    suggest name candidates = suggest name candidates' := by
  rw [suggest_eq_iff]
  refine (suggest_eq_iff.1 (rfl : suggest name candidates' = _)).imp (fun hbest => ?_) ?_
  · exact ⟨(h _).2 hbest.mem, hbest.near, fun other hmem => hbest.closer other ((h _).1 hmem)⟩
  · exact And.imp_right fun hnone other hmem => hnone other ((h _).1 hmem)

/-- The distance is the least number of insertions, deletions and replacements of characters. What is
suggested for a name is the closest of the candidates that are other names at most half of whose
characters differ, the first in bytewise order of those equally close, and the empty name if there is
no such candidate; the order and the repetitions of candidates do not matter. -/
theorem suggest_optimal :
    (∀ source target : String,
      editDistance source target = levenshtein source.toList target.toList ∧
      IsLeast {n | Edits n source.toList target.toList} (editDistance source target)) ∧
    (∀ (name : String) (candidates : List String) (s : String),
      suggest name candidates = s ↔
        IsClosest name candidates s ∨ s = "" ∧ ∀ candidate ∈ candidates, ¬ Near name candidate) ∧
    ∀ (name : String) (candidates candidates' : List String),
      (∀ candidate, candidate ∈ candidates ↔ candidate ∈ candidates') →
      suggest name candidates = suggest name candidates' := by
  refine ⟨fun source target => ?_, fun _ _ _ => suggest_eq_iff, fun name _ _ => suggest_congr name⟩
  rw [editDistance_eq_levenshtein]
  exact ⟨rfl, isLeast_levenshtein _ _⟩

theorem suggest_optimal_tie :
    suggest "mul" ["mil", "mal", "mil"] = "mal" ∧
      (∀ candidate, candidate ∈ ["mil", "mal", "mil"] ↔ candidate ∈ ["mal", "mil"]) ∧
      suggest "mul" ["mil", "mal", "mil"] = suggest "mul" ["mal", "mil"] := by
  have hmem : ∀ candidate : String,
      candidate ∈ ["mil", "mal", "mil"] ↔ candidate ∈ ["mal", "mil"] := by
    intro candidate
    simp
    tauto
  exact ⟨by cbv, hmem, suggest_optimal.2.2 _ _ _ hmem⟩

end Formulary.Text
