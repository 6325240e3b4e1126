import Mathlib.Data.List.Nodup
import Mathlib.Data.Prod.Basic
import GraphQL.Proofs.Database.Relocated
import GraphQL.Proofs.Production.Placement

/-! # The types that definitions are resolved through

No two definitions of a text are the same node, so an inference keeps their types apart: under a
definition stand just the types that its own entries note, `mem_referencedTypes_infer`. They depend
on the text and on the documents around it, but neither on source numbers nor on the numbers of
revisions: `referencedTypes_alike`. -/

namespace GraphQL

set_option autoImplicit false

open Outline (Led tokensOf)
open Resolution (SameTypes noted?)

/-! ## Definitions as nodes -/

theorem Definition.tokens_of_led {d : Definition} (led : Led [d.outline .definition]) :
    ∃ t rest, d.node.outline.tokens = t :: rest := by
  obtain ⟨t, rest, marks⟩ := led
  refine ⟨t, rest.filterMap Recovery.Mark.leaf?, ?_⟩
  have parts : (d.outline .definition).marks = .leaf t :: rest := by simpa using marks
  rw [d.outline_eq, Outline.marks_node] at parts
  rw [Outline.tokens_eq, Node.outline_eq, Outline.marks_node, parts]
  rfl

theorem Document.tokens_outline (document : Document) :
    document.outline.tokens = document.definitions.flatMap fun d => d.node.outline.tokens := by
  rw [Document.outline, Outline.tokens]
  induction document.definitions with
  | nil => rfl
  | cons d definitions ih =>
    rw [List.map_cons, Outline.tokensOf, ih, List.flatMap_cons, d.outline_eq, Outline.tokens,
      Node.tokens_outline]

/-- Definitions that begin with a leaf and follow one another are different nodes. -/
theorem Document.definition_ids_nodup {document : Document}
    (led : ∀ d ∈ document.definitions, Led [d.outline .definition])
    (ordered : document.outline.tokens.Pairwise Token.Before) (revision : Nat) :
    (document.definitions.map fun d => d.node.id revision).Nodup := by
  rw [document.tokens_outline] at ordered
  obtain ⟨inside, apart⟩ := List.pairwise_flatMap.1 ordered
  have starts (d : Definition) (hd : d ∈ document.definitions) :
      ∃ t ∈ d.node.outline.tokens, d.node.span?.map Span.start = some t.span.start := by
    obtain ⟨t, rest, tokens⟩ := Definition.tokens_of_led (led d hd)
    have before := inside d hd
    rw [tokens] at before
    refine ⟨t, tokens ▸ List.mem_cons_self, ?_⟩
    rw [Node.span?, tokens]
    exact cover_start before
  refine List.pairwise_map.2 (apart.imp_of_mem fun {d e} hd he before same => ?_)
  obtain ⟨t, ht, start⟩ := starts d hd
  obtain ⟨u, hu, start'⟩ := starts e he
  rw [show d.node.span? = e.node.span? from congrArg NodeId.span same, start'] at start
  exact Int.ne_of_lt (before t ht u hu).start_lt (Option.some.inj start).symm

/-! ## Types under a definition -/

theorem Inference.mem_referencedTypes_fileAll {i : Inference} {entries : List Resolution}
    {id : NodeId} {type : Text} :
    type ∈ (i.fileAll entries).referencedTypes.get id ↔
      type ∈ i.referencedTypes.get id ∨ (id, type) ∈ entries.filterMap noted? := by
  induction entries generalizing i with
  | nil => simp
  | cons entry entries ih =>
    rw [Inference.fileAll_cons, ih]
    cases entry with
    | referencedType definition name =>
      have own : noted? (.referencedType definition name) = some (definition, name) := rfl
      rw [List.filterMap_cons_some own, List.mem_cons, ← or_assoc, Prod.mk.injEq]
      exact or_congr_left (MultiMap.mem_get_insertNew ..)
    | _ => rw [List.filterMap_cons_none rfl]; rfl

/-- A revision of a text. -/
def Revision.IsRead (revision : Revision) : Prop :=
  ∃ source text, revision.tree = (parse source text).tree

/-- What a definition notes where nothing stands around it. -/
def Definition.noted (index : Index) (revision : Nat) (d : Definition) : List (NodeId × Text) :=
  (d.entries index revision { definition := some (d.node.id revision) }).filterMap noted?

variable {f : Span → Span} {index index' middle : Index} {revision revision' : Revision}
  {d d' : Definition} {type : Text}

/-- A definition notes types for itself, and the same for whatever it is when it is relocated. -/
theorem Definition.noted_moved (moved : Index.Moved f index middle) (revision revision' : Nat)
    (d : Definition) (id : NodeId) :
    ∃ types : List Text, d.noted index revision = types.map (Prod.mk (d.node.id revision)) ∧
      ((d.mapSpans f).entries middle revision' { definition := some id }).filterMap noted? =
        types.map (Prod.mk id) := by
  have alone : Environment.Moved f (d.node.id revision) id
      { definition := some (d.node.id revision) } { definition := some id } :=
    ⟨rfl, rfl, rfl, .neither, .neither, rfl⟩
  exact d.sameTypes moved alone

theorem mem_referencedTypes_infer (moved : Index.Moved f index middle) (read : revision.IsRead)
    (hd : d ∈ revision.tree.definitions) :
    type ∈ (infer index revision).referencedTypes.get (d.node.id revision.id) ↔
      (d.node.id revision.id, type) ∈ d.noted index revision.id := by
  obtain ⟨source, text, eq⟩ := read
  have ordered := eq ▸ parse_leaves_before source text
  have nodup := Document.definition_ids_nodup (eq ▸ parse_definitions_led source text) ordered
    revision.id
  have unnoted : type ∉ ({} : Inference).referencedTypes.get (d.node.id revision.id) :=
    List.not_mem_nil
  rw [infer_entries (Document.listsApart ordered revision.id),
    Inference.mem_referencedTypes_fileAll, or_iff_right unnoted, Document.entries,
    List.filterMap_flatMap, List.mem_flatMap]
  constructor
  · rintro ⟨e, he, noted⟩
    have noted : (d.node.id revision.id, type) ∈ e.noted index revision.id := noted
    obtain ⟨types, own, -⟩ := e.noted_moved moved revision.id 0 (e.node.id 0)
    rw [own] at noted
    obtain ⟨name, there, same⟩ := List.mem_map.1 noted
    have ids : e.node.id revision.id = d.node.id revision.id := congrArg Prod.fst same
    obtain rfl : e = d := List.inj_on_of_nodup_map nodup he hd ids
    rw [own, ← same]
    exact List.mem_map_of_mem there
  · exact fun noted => ⟨d, hd, noted⟩

/-- Definitions that are the same up to spans are resolved through the same types, if the indexes
file the same up to spans. -/
theorem referencedTypes_alike (moved : Index.Moved f index middle)
    (moved' : Index.Moved f index' middle) (read : revision.IsRead) (read' : revision'.IsRead)
    (hd : d ∈ revision.tree.definitions) (hd' : d' ∈ revision'.tree.definitions)
    (same : d'.mapSpans f = d.mapSpans f) :
    type ∈ (infer index' revision').referencedTypes.get (d'.node.id revision'.id) ↔
      type ∈ (infer index revision).referencedTypes.get (d.node.id revision.id) := by
  obtain ⟨types, own, common⟩ := d.noted_moved moved revision.id 0 (d.node.id 0)
  obtain ⟨types', own', common'⟩ := d'.noted_moved moved' revision'.id 0 (d.node.id 0)
  rw [same, common] at common'
  obtain rfl : types = types' :=
    List.map_injective_iff.2 (Prod.mk_right_injective (d.node.id 0)) common'
  have mem (id : NodeId) : (id, type) ∈ types.map (Prod.mk id) ↔ type ∈ types :=
    List.mem_map_of_injective (Prod.mk_right_injective id)
  rw [mem_referencedTypes_infer moved read hd, mem_referencedTypes_infer moved' read' hd', own, own',
    mem, mem]

end GraphQL
