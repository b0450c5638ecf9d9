import Loopsmith.Proofs.Template.Composition

/-!
# One rendering pass is enough

Rendering takes the tags out of a template and puts other text in their places.  Where the new
text meets the old, something could begin that was in neither: a comment whose slash stood in
front of a tag, a literal in a value, a tag put together from both sides.

It cannot, as long as no inserted text has a quote or a slash in it.  Literals, comments and tags
all begin with one of these characters, so nothing begins in what was inserted (`Inert`).  What is
kept begins as it did before: an item that has its end does not look further (`Item.Begins.own`),
one that has none is the last, and a slash that is a character of its own looks at the next
character only, which is not the slash of a tag and hence is still there (`Renders.head?_eq`).

So the items of the outcome are those of the source, with characters in the places of the tags.
There is no tag among them, and rendering them changes nothing.
-/

namespace Loopsmith

/-! ## What is inserted -/

/-- A character with which no literal, comment or tag begins. -/
def Inert (c : Char) : Prop :=
  c ≠ '\'' ∧ c ≠ '"' ∧ c ≠ '/'

theorem Inert.not_opener {c : Char} (h : Inert c) (k : Enclosure) (rest : List Char) :
    ¬ k.opener <+: c :: rest := by
  rintro ⟨u, hu⟩
  obtain ⟨hquote, hdouble, hslash⟩ := h
  cases k with
  | character => exact hquote (List.cons.inj hu).1.symm
  | string => exact hdouble (List.cons.inj hu).1.symm
  | line => exact hslash (List.cons.inj hu).1.symm
  | block => exact hslash (List.cons.inj hu).1.symm

theorem Item.begins_char {c : Char} {rest : List Char}
    (h : ∀ k : Enclosure, ¬ k.opener <+: c :: rest) : (Item.char c).Begins (c :: rest) rest :=
  .char (fun htag => h .block htag.opens_block) h rfl

/-- In front of a text, inert characters are items of their own. -/
theorem Lexes.inert_append {text out : List Char} {js : List Item} (h : Lexes out js)
    (htext : ∀ c ∈ text, Inert c) : Lexes (text ++ out) (text.map Item.char ++ js) := by
  induction text with
  | nil => exact h
  | cons c text ih =>
      obtain ⟨hc, htext⟩ := List.forall_mem_cons.1 htext
      exact .cons (Item.begins_char fun k => hc.not_opener k _) (ih htext)

/-! ## What is kept -/

namespace Item

variable {cs rest : List Char} {i : Item}

theorem opensTag_append {a : List Char} (h : OpensTag a) (b : List Char) : OpensTag (a ++ b) := by
  rcases h with h | h
  · exact .inl (h.trans (List.prefix_append a b))
  · exact .inr (h.trans (List.prefix_append a b))

/-- A text item that has its end begins where nothing follows it. -/
theorem Begins.own (h : i.Begins cs rest) (htext : i.isText = true) (hclosed : i.closed = true) :
    i.Begins i.source [] := by
  cases h with
  | tag => cases htext
  | @enclosed k text e hopen hcs hcut =>
      cases hcut with
      | @closed text' rest' hcs' hfirst =>
          refine .enclosed k (e := ⟨text', true, []⟩) (fun h => hopen ?_) rfl
            (.closed (List.append_nil text') hfirst)
          rw [hcs, ← hcs', ← List.append_assoc]
          exact opensTag_append h rest'
      | unclosed => cases hclosed
  | @char c rest hopen hnone hcs =>
      refine begins_char fun k hk => hnone k ?_
      rw [hcs]
      exact hk.trans (List.prefix_append [c] rest)

theorem Begins.tag_head? {t : Tag} (h : (Item.tag t).Begins cs rest) : cs.head? = some '/' := by
  rw [← h.source]
  cases t with
  | substitution lead name trail => rfl
  | conditional lead name body => rfl

/-- What follows a slash that is a character of its own. -/
theorem Begins.slash_head? (h : (Item.char '/').Begins cs rest) :
    rest.head? ≠ some '/' ∧ rest.head? ≠ some '*' := by
  cases h with
  | char hopen hnone hcs =>
      have hline := hnone .line
      have hblock := hnone .block
      rw [hcs] at hline hblock
      cases rest with
      | nil => simp
      | cons c rest => simpa [Enclosure.opener, eq_comm] using And.intro hline hblock

theorem begins_slash {out : List Char} (hline : out.head? ≠ some '/')
    (hblock : out.head? ≠ some '*') : (Item.char '/').Begins ('/' :: out) out := by
  refine begins_char fun k => ?_
  cases out with
  | nil => cases k <;> simp [Enclosure.opener]
  | cons c out =>
      have hc : c ≠ '/' ∧ c ≠ '*' := by simpa using And.intro hline hblock
      cases k <;> simp [Enclosure.opener, hc.1.symm, hc.2.symm]

end Item

namespace Template

variable {ps : Parameters} {cs out : List Char} {is : List Item}

/-- The first character of a text is kept unless a tag stands there. -/
theorem Renders.head?_eq (hr : Renders ps is out) (h : Lexes cs is) (hhead : cs.head? ≠ some '/') :
    out.head? = cs.head? := by
  cases hr with
  | nil =>
      cases h with
      | nil => rfl
  | @text i is out hi hr =>
      cases h with
      | cons hbegins h =>
          rw [← hbegins.source, List.head?_append_of_ne_nil _ hbegins.source_ne_nil,
            List.head?_append_of_ne_nil _ hbegins.source_ne_nil]
  | tag hvalue hr =>
      cases h with
      | cons hbegins h => exact absurd hbegins.tag_head? hhead

/-- A text item begins in the outcome as it did in the source. -/
theorem Renders.begins {i : Item} {rest : List Char} (hr : Renders ps is out) (h : Lexes rest is)
    (hbegins : i.Begins cs rest) (hi : i.isText = true) : i.Begins (i.source ++ out) out := by
  cases hclosed : i.closed with
  | false =>
      have hrest := hbegins.rest_eq_nil hclosed
      subst hrest
      cases h.eq_nil
      cases hr with
      | nil =>
          have hsource := hbegins.source
          rw [List.append_nil] at hsource ⊢
          rwa [hsource]
  | true =>
      by_cases hslash : i = .char '/'
      · subst hslash
        obtain ⟨hline, hblock⟩ := hbegins.slash_head?
        have hhead := hr.head?_eq h hline
        rw [← hhead] at hline hblock
        exact Item.begins_slash hline hblock
      · exact (hbegins.own hi hclosed).append hclosed (fun h => absurd h hslash) out

/-- The text that a template inserts is inert. -/
def InsertsInert (ps : Parameters) (t : Tag) : Prop :=
  ∀ value, ps.get? t.name = some value → ∀ c ∈ expand value t, Inert c

/-- The items of the outcome: characters stand for what was inserted, and the rest is kept. -/
theorem Renders.lexes (hr : Renders ps is out) (h : Lexes cs is)
    (hinert : ∀ t, Item.tag t ∈ is → InsertsInert ps t) :
    ∃ js, Lexes out js ∧ ∀ j ∈ js, j.isText = true := by
  induction h generalizing out with
  | nil =>
      cases hr with
      | nil => exact ⟨[], .nil, by simp⟩
  | @cons cs rest i is hbegins h ih =>
      have hinert' : ∀ t, Item.tag t ∈ is → InsertsInert ps t :=
        fun t ht => hinert t (List.mem_cons_of_mem i ht)
      cases hr with
      | text hi hr =>
          obtain ⟨js, hjs, htext⟩ := ih hr hinert'
          exact ⟨i :: js, .cons (hr.begins h hbegins hi) hjs,
            List.forall_mem_cons.2 ⟨hi, htext⟩⟩
      | @tag t _ out value hvalue hr =>
          obtain ⟨js, hjs, htext⟩ := ih hr hinert'
          have hnew : ∀ c ∈ expand value t, Inert c := hinert t List.mem_cons_self value hvalue
          refine ⟨(expand value t).map .char ++ js, hjs.inert_append hnew, ?_⟩
          refine List.forall_mem_append.2 ⟨List.forall_mem_map.2 fun c _ => rfl, htext⟩

/-! ## Templates without tags -/

theorem tag_mem_gather {t : Tag} : Piece.tag t ∈ gather is ↔ Item.tag t ∈ is := by
  induction is with
  | nil => simp [gather]
  | cons i is ih =>
      cases hi : i.isText with
      | true =>
          rw [gather_cons_of_isText hi]
          have hne : Item.tag t ≠ i := by
            rintro rfl
            cases hi
          rcases hg : gather is with _ | ⟨u | u, pieces⟩
          · simpa [hg, hne] using ih
          · simpa [hg, hne] using ih
          · simpa [hg, hne] using ih
      | false =>
          cases i with
          | char c => cases hi
          | enclosed text closed => cases hi
          | tag u => simp [gather, ih]

theorem renders_of_isText (ps : Parameters) (h : ∀ i ∈ is, i.isText = true) :
    Renders ps is (is.flatMap Item.source) := by
  induction is with
  | nil => exact .nil
  | cons i is ih =>
      obtain ⟨hi, his⟩ := List.forall_mem_cons.1 h
      exact .text hi (ih his)

/-- **One rendering pass is enough.**  If the parameters bind every tag of a template, and no
value that is substituted and no body that is emitted has a quote or a slash in it, then the
template renders, its outcome parses without a tag, and rendering the outcome, under any
parameters, gives it back. -/
theorem render_once {source : String} {t : Template} (hparse : parse source = .ok t)
    {ps : Parameters} (hbound : ∀ tag, .tag tag ∈ t.pieces → ps.contains tag.name = true)
    (hinert : ∀ tag, .tag tag ∈ t.pieces → ∀ value, ps.get? tag.name = some value →
      ∀ c ∈ expand value tag, c ≠ '\'' ∧ c ≠ '"' ∧ c ≠ '/') :
    ∃ out, t.render ps = .ok out ∧
      ∃ t', parse out = .ok t' ∧ (∀ p ∈ t'.pieces, p.isText = true) ∧
        ∀ ps', t'.render ps' = .ok out := by
  obtain ⟨is, hlexes, hpieces⟩ := parse_eq_ok_iff.1 hparse
  obtain ⟨out, hrender, -⟩ := exists_renderAll_eq t.pieces [] [] rfl hbound
  rw [hpieces] at hrender hinert
  have hout : Renders ps is out := renderAll_gather_eq_ok_iff.1 hrender
  obtain ⟨js, hjs, htext⟩ := hout.lexes hlexes fun tag htag => hinert tag (tag_mem_gather.2 htag)
  have hsource : js.flatMap Item.source = out := hjs.source
  refine ⟨String.ofList out, ?_, ⟨gather js⟩, ?_, ?_, ?_⟩
  · rw [render_eq_ok_iff hpieces, String.toList_ofList]
    exact hout
  · refine parse_eq_ok_iff.2 ⟨js, ?_, rfl⟩
    rwa [String.toList_ofList]
  · intro p hp
    cases p with
    | text text => rfl
    | tag tag => cases htext _ (tag_mem_gather.1 hp)
  · intro ps'
    have hrenders := renders_of_isText ps' htext
    rw [render_eq_ok_iff rfl, String.toList_ofList, ← hsource]
    exact hrenders

/-- An empty value, a body of stars and what is left of a quoted tag meet without a new tag. -/
theorem render_once_at_seams :
    ∃ t, parse "'/*<DOPING Q >*/'/*<DOPING A >*/*1/ /*<DOPING_IF B >**>*/<DOPING C >*/" = .ok t ∧
      t.render ⟨[("A", ""), ("B", "1")]⟩ = .ok "'/*<DOPING Q >*/'*1/ >**<DOPING C >*/" ∧
      ∃ t', parse "'/*<DOPING Q >*/'*1/ >**<DOPING C >*/" = .ok t' ∧
        (∀ p ∈ t'.pieces, p.isText = true) ∧
        ∀ ps', t'.render ps' = .ok "'/*<DOPING Q >*/'*1/ >**<DOPING C >*/" := by
  have hparse : parse "'/*<DOPING Q >*/'/*<DOPING A >*/*1/ /*<DOPING_IF B >**>*/<DOPING C >*/" =
      .ok ⟨[.text "'/*<DOPING Q >*/'".toList, .tag (.substitution 0 "A" 0), .text "*1/ ".toList,
        .tag (.conditional 0 "B" ">**".toList), .text "<DOPING C >*/".toList]⟩ := by
    decide +kernel
  have hrender : Template.render ⟨[.text "'/*<DOPING Q >*/'".toList, .tag (.substitution 0 "A" 0),
      .text "*1/ ".toList, .tag (.conditional 0 "B" ">**".toList), .text "<DOPING C >*/".toList]⟩
      ⟨[("A", ""), ("B", "1")]⟩ = .ok "'/*<DOPING Q >*/'*1/ >**<DOPING C >*/" := by
    decide +kernel
  obtain ⟨out, hout, ht'⟩ := @render_once _ _ hparse ⟨[("A", ""), ("B", "1")]⟩
    (by
      intro tag htag
      simp only [List.mem_cons, Piece.tag.injEq, List.not_mem_nil, or_false, reduceCtorEq,
        false_or] at htag
      rcases htag with rfl | rfl
      · decide
      · decide)
    (by
      intro tag htag value hvalue
      simp only [List.mem_cons, Piece.tag.injEq, List.not_mem_nil, or_false, reduceCtorEq,
        false_or] at htag
      rcases htag with rfl | rfl
      · cases hvalue
        simp [expand]
      · cases hvalue
        simp [expand])
  cases hrender.symm.trans hout
  exact ⟨_, hparse, hrender, ht'⟩

end Template
end Loopsmith
