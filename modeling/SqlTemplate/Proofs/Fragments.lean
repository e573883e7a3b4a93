import SqlTemplate.Proofs.Renaming
import SqlTemplate.Proofs.Separation

/-!
# Whole fragments

Fragments that can be cut, renamed and put together as often as it takes.

* `Whole`: a fragment that escapes nothing and closes its placeholders;
* `WholeAll`: fragments that are whole one by one, and all their contents in order. Joining fragments,
  renaming them and laying a loop out does to the contents what one expects;
* `WholeAll.passElement`: what the layers of an element do to the contents of its body;
* `WholeAll.contents_text`: they are the contents that finalization finds.
-/

namespace SqlTemplate

/-! ## 1. One fragment -/

/-- Whether a fragment escapes nothing and closes its placeholders. -/
structure Whole (fragment : String) : Prop where
  unescaped : IsUnescaped fragment.toList
  closed : IsClosed fragment.toList

theorem whole_of_not_occursIn {fragment : String}
    (h : Text.occursIn Delimiters.bind.opening fragment.toList = false) :
    Whole fragment ∧ fragmentContents fragment = [] := by
  obtain ⟨text, ht⟩ := pieces_of_not_occursIn h
  refine ⟨⟨fun p hp => ?_, isClosed_of_not_occursIn h⟩, ?_⟩
  · rw [ht] at hp
    rw [List.mem_singleton.mp hp]
    rfl
  · unfold fragmentContents
    rw [Delimiters.contents_eq, ht]
    rfl

theorem Piece.content?_mapContent (f : List Char → List Char) (p : Piece) :
    (p.mapContent f).content? = p.content?.map f := by
  cases p with
  | text cs => rfl
  | escapedOpen => rfl
  | token content => rfl
  | unterminated cs => rfl
  | overlap => rfl

/-- Renaming the variables of a whole fragment renames its contents. -/
theorem Whole.renameFragment {fragment : String} (h : Whole fragment)
    (item index : Option String) (suffix : Nat) :
    Whole (Layer.renameFragment item index suffix fragment) ∧
      fragmentContents (Layer.renameFragment item index suffix fragment) =
        (fragmentContents fragment).map (Layer.rename item index suffix) := by
  have hp := Layer.pieces_renameFragment item index suffix h.unescaped
  refine ⟨⟨Layer.isUnescaped_of_pieces (Layer.count_rename item index suffix) hp h.unescaped,
    fun rest hmem => ?_⟩, ?_⟩
  · rw [hp] at hmem
    obtain ⟨p, hmem, he⟩ := List.mem_map.mp hmem
    cases p with
    | unterminated cs => exact h.closed cs hmem
    | text cs => cases he
    | escapedOpen => cases he
    | token content => cases he
    | overlap => cases he
  · unfold fragmentContents
    rw [Delimiters.contents_eq, Delimiters.contents_eq, hp, List.filterMap_map,
      List.map_filterMap]
    exact List.filterMap_congr fun p _ => p.content?_mapContent _

/-! ## 2. Lists of fragments -/

/-- Whether fragments are whole one by one, with these contents in order. -/
structure WholeAll (fragments : List String) (contents : List (List Char)) : Prop where
  whole : ∀ f ∈ fragments, Whole f
  contents : fragments.flatMap fragmentContents = contents

/-- Whether none of the texts of a loop holds a placeholder. -/
def Loop.IsMute (l : Loop) : Prop :=
  ∀ x ∈ l.opening.toList ++ l.separator.toList ++ l.closing.toList,
    Text.occursIn Delimiters.bind.opening x.toList = false

/-- What is put between elements holds no placeholder either. -/
theorem Loop.IsMute.separatorText {l : Loop} (h : l.IsMute) (first : Bool) :
    Text.occursIn Delimiters.bind.opening (l.separatorText first).toList = false := by
  cases first with
  | true => rfl
  | false =>
    unfold Loop.separatorText
    cases hs : l.separator with
    | none => rfl
    | some x =>
      refine h x (List.mem_append_left _ (List.mem_append_right _ ?_))
      exact Option.mem_toList.mpr hs

namespace WholeAll

variable {fs gs : List String} {ts us : List (List Char)}

theorem nil : WholeAll [] [] := ⟨fun _ h => absurd h List.not_mem_nil, rfl⟩

theorem single {f : String} (h : Whole f) : WholeAll [f] (fragmentContents f) :=
  ⟨fun _ hg => List.mem_singleton.mp hg ▸ h, List.append_nil _⟩

theorem append (h : WholeAll fs ts) (h' : WholeAll gs us) : WholeAll (fs ++ gs) (ts ++ us) := by
  refine ⟨fun f hf => (List.mem_append.mp hf).elim (h.whole f) (h'.whole f), ?_⟩
  rw [List.flatMap_append, h.contents, h'.contents]

/-- Fragments without placeholders. -/
theorem of_not_occursIn
    (h : ∀ f ∈ fs, Text.occursIn Delimiters.bind.opening f.toList = false) : WholeAll fs [] :=
  ⟨fun f hf => (whole_of_not_occursIn (h f hf)).1,
    List.flatMap_eq_nil_iff.mpr fun f hf => (whole_of_not_occursIn (h f hf)).2⟩

theorem rename (h : WholeAll fs ts) (item index : Option String) (suffix : Nat) :
    WholeAll (fs.map (Layer.renameFragment item index suffix))
      (ts.map (Layer.rename item index suffix)) := by
  refine ⟨fun g hg => ?_, ?_⟩
  · obtain ⟨f, hf, rfl⟩ := List.mem_map.mp hg
    exact ((h.whole f hf).renameFragment item index suffix).1
  · rw [← h.contents, List.flatMap_map, List.map_flatMap]
    exact List.flatMap_congr fun f hf => ((h.whole f hf).renameFragment item index suffix).2

theorem split (h : WholeAll (fs ++ gs) ts) :
    WholeAll fs (fs.flatMap fragmentContents) ∧ WholeAll gs (gs.flatMap fragmentContents) ∧
      ts = fs.flatMap fragmentContents ++ gs.flatMap fragmentContents :=
  ⟨⟨fun f hf => h.whole f (List.mem_append_left _ hf), rfl⟩,
    ⟨fun f hf => h.whole f (List.mem_append_right _ hf), rfl⟩,
    h.contents.symm.trans List.flatMap_append⟩

/-- **The layers of an element rename the contents of its body**, and nothing else comes in with the
    separator. -/
theorem passElement {l : Loop} (hl : l.IsMute) (first : Bool) (suffix : Nat)
    (h : WholeAll fs ts) :
    WholeAll (l.passElement first suffix fs).2 (ts.map (Layer.rename l.item l.index suffix)) := by
  have hfs : fs.takeWhile Text.isBlankText ++ fs.dropWhile Text.isBlankText = fs :=
    List.takeWhile_append_dropWhile
  rw [← hfs] at h
  obtain ⟨hblank, hrest, rfl⟩ := h.split
  have hblank' := hblank.rename l.item l.index suffix
  have hrest' := hrest.rename l.item l.index suffix
  rw [l.passElement_layers first ⟨suffix, fs⟩, List.map_append]
  split
  · have hsep : WholeAll [l.separatorText first] [] := of_not_occursIn fun f hf => by
      rw [List.mem_singleton.mp hf]
      exact hl.separatorText first
    have hall := (hblank'.append hsep).append hrest'
    rw [List.append_nil] at hall
    exact hall
  · rw [List.append_nil]
    exact hblank'.append hrest'

/-- A loop puts its texts around the fragments of its elements. -/
theorem surround {l : Loop} (hl : l.IsMute) (h : WholeAll fs ts) :
    WholeAll (l.opening.toList ++ fs ++ l.closing.toList) ts := by
  have hopen : WholeAll l.opening.toList [] := of_not_occursIn fun x hx =>
    hl x (List.mem_append_left _ (List.mem_append_left _ hx))
  have hclose : WholeAll l.closing.toList [] := of_not_occursIn fun x hx =>
    hl x (List.mem_append_right _ hx)
  have hall := (hopen.append h).append hclose
  rw [List.append_nil] at hall
  exact hall

/-- **The contents of whole fragments are those of the text of their scope.** -/
theorem contents_text {s : Scope} (h : WholeAll s.fragments ts) :
    Delimiters.bind.contents s.text.toList = ts := by
  rw [← h.contents]
  exact SqlTemplate.contents_text fun f hf => (h.whole f hf).closed

end WholeAll

end SqlTemplate
