import Loopsmith.Proofs.Template.Grammar
import Loopsmith.Template.Basic

/-!
# Scanning accepts the lexical grammar

A text is a sequence of items when one item after another begins at its head (`Lexes`), and
the scanner finds just these sequences: `Item.scan_eq_ok_iff`.  Since the scanner is a function,
a text has at most one such sequence.

A template does not keep the items.  Its segments are the tags, each at its place, and between
them the longest runs of other items, each joined into one text (`Segments`); a literal or a
comment is one of these other items, so a tag that is written in one is part of a text.
`segments_iff` says that this describes the placed pieces of a template completely.
-/

namespace Loopsmith

/-! ## Sequences of items -/

/-- A text that is made of the given items. -/
inductive Lexes : List Char → List Item → Prop where
  | nil : Lexes [] []
  | cons {cs rest : List Char} {i : Item} {is : List Item} (hi : i.Begins cs rest)
      (h : Lexes rest is) : Lexes cs (i :: is)

namespace Item

theorem Begins.ne_nil {cs rest : List Char} {i : Item} (h : i.Begins cs rest) : cs ≠ [] := by
  rintro rfl
  cases h with
  | tag h =>
      cases h with
      | substitution _ hcs => simp [substitutionOpener] at hcs
      | conditional _ _ hcs => simp [conditionalOpener] at hcs
  | enclosed k _ hcs _ => cases k <;> cases hcs
  | char _ _ hcs => cases hcs

theorem scan_of_read {pos : Nat} {c : Char} {cs rest : List Char} {i : Item} {is : List Item}
    (hi : read pos c cs = .ok (i, rest))
    (h : scan (pos + Text.byteLength i.source) rest = .ok is) :
    scan pos (c :: cs) = .ok (i :: is) := by
  rw [scan]
  split
  · next e he =>
      rw [hi] at he
      cases he
  · next j r hj =>
      rw [hi] at hj
      cases hj
      rw [h]

/-- Scanning decides whether a text is a sequence of items, wherever the text stands. -/
theorem scan_eq_ok_iff {pos : Nat} {cs : List Char} {is : List Item} :
    scan pos cs = .ok is ↔ Lexes cs is := by
  constructor
  · intro h
    fun_induction scan pos cs generalizing is with
    | case1 =>
        cases h
        exact .nil
    | case2 => cases h
    | case3 => cases h
    | case4 pos c cs i rest hi js hjs ih =>
        cases h
        exact .cons (read_eq_ok_iff.1 hi) (ih hjs)
  · intro h
    induction h generalizing pos with
    | nil => rw [scan]
    | @cons cs rest i is hi h ih =>
        obtain ⟨c, cs, rfl⟩ := List.exists_cons_of_ne_nil hi.ne_nil
        exact scan_of_read (read_eq_ok_iff.2 hi) ih

end Item

theorem Lexes.unique {cs : List Char} {is js : List Item} (h : Lexes cs is) (h' : Lexes cs js) :
    is = js := by
  have hscan : Item.scan 0 cs = .ok is := Item.scan_eq_ok_iff.2 h
  rw [Item.scan_eq_ok_iff.2 h'] at hscan
  exact (Except.ok.inj hscan).symm

/-! ## Segments -/

/-- Whether the item becomes a part of a text. -/
def Item.isText : Item → Bool
  | tag _ => false
  | _ => true

/-- The segments of a sequence of items that stands at byte `pos`: every tag by itself, and
the items from one tag to the next as one text. -/
inductive Segments : Nat → List Item → List Template.Placed → Prop where
  | nil (pos : Nat) : Segments pos [] []
  | tag {pos : Nat} {t : Tag} {is : List Item} {ps : List Template.Placed}
      (h : Segments (pos + Text.byteLength t.source) is ps) :
      Segments pos (.tag t :: is) (⟨.tag t, pos, pos + Text.byteLength t.source⟩ :: ps)
  | text {pos : Nat} {run is : List Item} {text : List Char} {ps : List Template.Placed}
      (hne : run ≠ []) (hrun : ∀ i ∈ run, i.isText = true)
      (hnext : ∀ i ∈ is.head?, i.isText = false) (htext : text = run.flatMap Item.source)
      (h : Segments (pos + Text.byteLength text) is ps) :
      Segments pos (run ++ is) (⟨.text text, pos, pos + Text.byteLength text⟩ :: ps)

namespace Template

theorem gather_cons_of_isText {i : Item} (hi : i.isText = true) (is : List Item) :
    gather (i :: is) =
      match gather is with
      | .text t :: ps => .text (i.source ++ t) :: ps
      | ps => .text i.source :: ps := by
  cases i with
  | tag t => cases hi
  | char c => rfl
  | enclosed text closed => rfl

/-- Items up to a tag or to the end are joined into one text. -/
theorem gather_append {run is : List Item} (hne : run ≠ [])
    (hrun : ∀ i ∈ run, i.isText = true) (hnext : ∀ i ∈ is.head?, i.isText = false) :
    gather (run ++ is) = .text (run.flatMap Item.source) :: gather is := by
  induction run with
  | nil => exact absurd rfl hne
  | cons i run ih =>
      rw [List.cons_append, gather_cons_of_isText (hrun i List.mem_cons_self), List.flatMap_cons]
      by_cases hnil : run = []
      · subst hnil
        cases is with
        | nil => simp [gather]
        | cons j is =>
            cases j with
            | tag t => simp [gather]
            | char c => cases hnext _ rfl
            | enclosed text closed => cases hnext _ rfl
      · rw [ih hnil fun j hj => hrun j (List.mem_cons_of_mem i hj)]

/-- Every sequence of items is a run without tags, and then nothing or a tag. -/
theorem exists_run (is : List Item) :
    ∃ run rest, is = run ++ rest ∧ (∀ i ∈ run, i.isText = true) ∧
      ∀ i ∈ rest.head?, i.isText = false := by
  refine ⟨is.takeWhile Item.isText, is.dropWhile Item.isText,
    List.takeWhile_append_dropWhile.symm, fun i hi => List.mem_takeWhile_imp hi, ?_⟩
  intro i hi
  have hnot := List.head?_dropWhile_not Item.isText is
  rw [Option.mem_def.1 hi] at hnot
  simpa using hnot

theorem segments_place_gather (pos : Nat) (is : List Item) :
    Segments pos is (place pos (gather is)) := by
  -- the text in front of a tag is taken off as a whole, so the induction is on the length
  induction hn : is.length using Nat.strong_induction_on generalizing pos is with
  | _ n ih =>
      subst hn
      cases is with
      | nil => exact .nil pos
      | cons i is =>
          cases hi : i.isText with
          | false =>
              cases i with
              | tag t => exact .tag (ih _ (Nat.lt_succ_self _) _ is rfl)
              | char c => cases hi
              | enclosed text closed => cases hi
          | true =>
              obtain ⟨run, rest, rfl, hrun, hnext⟩ := exists_run is
              have hne : i :: run ≠ [] := List.cons_ne_nil i run
              have hrun' : ∀ j ∈ i :: run, j.isText = true := List.forall_mem_cons.2 ⟨hi, hrun⟩
              have hlen : rest.length < (i :: (run ++ rest)).length := by
                rw [List.length_cons, List.length_append]
                omega
              rw [← List.cons_append, gather_append hne hrun' hnext]
              exact .text hne hrun' hnext rfl (ih _ hlen _ rest rfl)

/-- The placed pieces of a sequence of items are its segments. -/
theorem segments_iff {pos : Nat} {is : List Item} {ps : List Placed} :
    Segments pos is ps ↔ ps = place pos (gather is) := by
  constructor
  · intro h
    induction h with
    | nil pos => rfl
    | tag _ ih => rw [ih]; rfl
    | text hne hrun hnext htext _ ih =>
        rw [ih, gather_append hne hrun hnext, htext]
        rfl
  · rintro rfl
    exact segments_place_gather pos is

theorem map_piece_place (pos : Nat) (ps : List Piece) : (place pos ps).map Placed.piece = ps := by
  induction ps generalizing pos with
  | nil => rfl
  | cons p ps ih => rw [place, List.map_cons, ih]

theorem parse_eq_ok_iff {source : String} {t : Template} :
    parse source = .ok t ↔ ∃ is, Lexes source.toList is ∧ t.pieces = gather is := by
  unfold parse ofChars?
  constructor
  · intro h
    cases hs : Item.scan 0 source.toList with
    | error e =>
        rw [hs] at h
        cases h
    | ok is =>
        rw [hs] at h
        cases h
        exact ⟨is, Item.scan_eq_ok_iff.1 hs, rfl⟩
  · rintro ⟨is, hlexes, hpieces⟩
    rw [Item.scan_eq_ok_iff.2 hlexes]
    obtain ⟨pieces⟩ := t
    cases hpieces
    rfl

theorem segments_placed_iff {t : Template} {is : List Item} :
    Segments 0 is t.placed ↔ t.pieces = gather is := by
  rw [segments_iff, placed]
  constructor
  · intro h
    have hmap := congrArg (List.map Placed.piece) h
    rwa [map_piece_place, map_piece_place] at hmap
  · intro h
    rw [h]

/-- **A template parses exactly when its source is a sequence of items.**  The sequence is then
unique, and the segments are its tags, at the places where they stand, with the longest texts
between them; in particular a tag is found exactly where no literal, comment or other tag
covers it. -/
theorem parse_iff_lexes (source : String) :
    ((∃ t, parse source = .ok t) ↔ ∃ is, Lexes source.toList is) ∧
      (∀ is js, Lexes source.toList is → Lexes source.toList js → is = js) ∧
      ∀ t, parse source = .ok t ↔ ∃ is, Lexes source.toList is ∧ Segments 0 is t.placed := by
  refine ⟨⟨?_, ?_⟩, fun is js => Lexes.unique, fun t => ?_⟩
  · rintro ⟨t, ht⟩
    obtain ⟨is, hlexes, -⟩ := parse_eq_ok_iff.1 ht
    exact ⟨is, hlexes⟩
  · rintro ⟨is, hlexes⟩
    exact ⟨⟨gather is⟩, parse_eq_ok_iff.2 ⟨is, hlexes, rfl⟩⟩
  · simp only [parse_eq_ok_iff, segments_placed_iff]

/-- A tag in a character literal is a part of the text, and the one behind it is found. -/
theorem parse_iff_lexes_quoted :
    ∃ is, Lexes "'/*<DOPING A >*/'/*<DOPING B >*/".toList is ∧
      Segments 0 is
        [⟨.text "'/*<DOPING A >*/'".toList, 0, 17⟩, ⟨.tag (.substitution 0 "B" 0), 17, 32⟩] ∧
      ∀ js, Lexes "'/*<DOPING A >*/'/*<DOPING B >*/".toList js → js = is := by
  have hparse : parse "'/*<DOPING A >*/'/*<DOPING B >*/" =
      .ok ⟨[.text "'/*<DOPING A >*/'".toList, .tag (.substitution 0 "B" 0)]⟩ := by
    decide +kernel
  obtain ⟨-, hunique, hiff⟩ := parse_iff_lexes "'/*<DOPING A >*/'/*<DOPING B >*/"
  obtain ⟨is, hlexes, hsegments⟩ := (hiff _).1 hparse
  exact ⟨is, hlexes, hsegments, fun js hjs => hunique js is hjs hlexes⟩

end Template
end Loopsmith
