import Stageflow.Proofs.References

/-!
# How extensions end

The way along the extension of a document goes from each document to the one it extends, and ends in
one of three places: at a document that extends none, at a base that the source does not know, or
where it comes back to an id it has met. Where it ends decides what resolving the document comes to.

## Main statements

* `Resolution.lineage_or_long` — the lineage of a document is found by following its way.
* `resolve_of_way` — every document has one way, and is resolved according to its end.
-/

namespace Stageflow

/-! ## Ways -/

/-- Where the way along an extension ends: at a document that extends none, at an unknown base, or
where it comes back to an id. -/
inductive WayEnd where
  | root
  | unknown (base : String)
  | circular (again : String)
  deriving Repr

namespace Source

variable {source : Source} {document d : TeamDocument} {met : List String}
  {way : List TeamDocument} {ending : WayEnd}

/-- Whether a way that has met some ids ends behind a document. -/
def EndsBehind (source : Source) (met : List String) (document : TeamDocument) : WayEnd → Prop
  | .root => document.base = none
  | .unknown base => document.base = some base ∧ source.document? base = none
  | .circular again => again ∈ met ∧ ∃ parent, source.Extends document parent ∧ parent.id = again

/-- The way along the extension of a document, with its end, where some ids were met before: it goes
on from a document to the one that it extends, as long as there is one with a new id. -/
inductive Way (source : Source) : List String → TeamDocument → List TeamDocument → WayEnd → Prop
  | stop {met : List String} {document : TeamDocument} {ending : WayEnd}
    (ends : source.EndsBehind (met ++ [document.id]) document ending) :
    Way source met document [document] ending
  | onward {met : List String} {document parent : TeamDocument} {way : List TeamDocument}
    {ending : WayEnd} (step : source.Extends document parent)
    (fresh : parent.id ∉ met ++ [document.id])
    (rest : Way source (met ++ [document.id]) parent way ending) :
    Way source met document (document :: way) ending

/-- A document extends at most one. -/
theorem Extends.unique {parent other : TeamDocument} (h : source.Extends document parent)
    (h' : source.Extends document other) : parent = other := by
  obtain ⟨base, hbase, hfound⟩ := h
  obtain ⟨base', hbase', hfound'⟩ := h'
  obtain rfl : base = base' := Option.some.inj (hbase.symm.trans hbase')
  exact Option.some.inj (hfound.symm.trans hfound')

/-- A way ends behind a document in at most one manner. -/
theorem EndsBehind.unique {other : WayEnd} (h : source.EndsBehind met document ending)
    (h' : source.EndsBehind met document other) : ending = other := by
  cases ending <;> cases other <;> simp only [EndsBehind, Extends] at h h' <;> grind

/-- Where a way ends, it does not go on. -/
theorem EndsBehind.not_fresh {parent : TeamDocument} (h : source.EndsBehind met document ending)
    (hextends : source.Extends document parent) : parent.id ∈ met := by
  obtain ⟨base, hbase, hfound⟩ := id hextends
  cases ending with
  | root => cases (show document.base = none from h).symm.trans hbase
  | unknown base' =>
    obtain rfl : base' = base := Option.some.inj (h.1.symm.trans hbase)
    cases h.2.symm.trans hfound
  | circular again =>
    obtain ⟨hmet, other, hother, rfl⟩ := h
    exact hextends.unique hother ▸ hmet

namespace Way

/-- A document has at most one way. -/
theorem unique {way' : List TeamDocument} {ending' : WayEnd}
    (h : source.Way met document way ending) (h' : source.Way met document way' ending') :
    way = way' ∧ ending = ending' := by
  induction h generalizing way' ending' with
  | stop ends =>
    cases h' with
    | stop ends' => exact ⟨rfl, ends.unique ends'⟩
    | onward step' fresh' => exact absurd (ends.not_fresh step') fresh'
  | onward step fresh _ ih =>
    cases h' with
    | stop ends' => exact absurd (ends'.not_fresh step) fresh
    | onward step' _ rest' =>
      obtain rfl := step.unique step'
      obtain ⟨rfl, rfl⟩ := ih rest'
      exact ⟨rfl, rfl⟩

/-- A way begins with its document. -/
theorem exists_rest (h : source.Way met document way ending) : ∃ rest, way = document :: rest := by
  cases h with
  | stop => exact ⟨[], rfl⟩
  | onward => exact ⟨_, rfl⟩

/-- Each document of a way extends the next one. -/
theorem isChain (h : source.Way met document way ending) : way.IsChain source.Extends := by
  induction h with
  | stop => exact .singleton _
  | onward step _ rest ih =>
    obtain ⟨others, rfl⟩ := rest.exists_rest
    exact .cons_cons step ih

/-- The ids on a way are different, from one another and from those met before. -/
theorem nodup (h : source.Way met document way ending) (hmet : (met ++ [document.id]).Nodup) :
    (met ++ way.map (·.id)).Nodup := by
  induction h with
  | stop => exact hmet
  | @onward met document parent way ending _ fresh _ ih =>
    have hnext : (met ++ [document.id] ++ [parent.id]).Nodup :=
      List.nodup_append_comm.1 (by simpa using ⟨by simpa using fresh, hmet⟩)
    simpa using ih hnext

/-- A way ends behind its last document. -/
theorem endsBehind (h : source.Way met document way ending) :
    ∃ last, way.getLast? = some last ∧
      source.EndsBehind (met ++ way.map (·.id)) last ending := by
  induction h with
  | stop ends => exact ⟨_, rfl, ends⟩
  | onward _ _ rest ih =>
    obtain ⟨last, hlast, hends⟩ := ih
    obtain ⟨others, rfl⟩ := rest.exists_rest
    exact ⟨last, by rw [List.getLast?_cons_cons, hlast], by simpa using hends⟩

end Way

end Source

/-! ## Lineages along ways -/

namespace Resolution

variable {source : Source} {document : TeamDocument} {met : List String}

/-- What following a way comes to: the lineage, root first, or the issue at its end. `met` holds the
ids that lead to the way. -/
def ofWay (met : List String) (way : List TeamDocument) :
    WayEnd → Except ResolutionIssue (List TeamDocument)
  | .root => .ok way.reverse
  | .unknown base => .error ⟨(way.getLast?.map (·.id)).getD "", .unknownBase base⟩
  | .circular again =>
    let ids := met ++ way.map (·.id)
    .error ⟨ids.head?.getD again, .circularExtension (ids ++ [again])⟩

/-- What comes of a way that goes on comes of its rest. -/
theorem ofWay_cons {parent : TeamDocument} {way rest : List TeamDocument} {ending : WayEnd}
    (hway : way = parent :: rest) :
    ofWay met (document :: way) ending =
      (ofWay (met ++ [document.id]) way ending).map (· ++ [document]) := by
  subst hway
  cases ending <;> simp [ofWay, Except.map]

/-- The lineage of a document is found by following its way, unless the way leads past more
documents of the source, with different ids, than the fuel allows. -/
theorem lineage_or_long (source : Source) (fuel : Nat) (fresh : document.id ∉ met) :
    (∃ way ending, source.Way met document way ending ∧
      lineage source fuel met document = ofWay met way ending) ∨
    ∃ bases : List TeamDocument, bases.length = fuel ∧
      bases ⊆ source.documents.values ++ source.templates.values ∧
      (bases.map (·.id)).Nodup ∧ ∀ d ∈ bases, d.id ∉ met ++ [document.id] := by
  induction fuel generalizing met document with
  | zero => exact .inr ⟨[], rfl, List.nil_subset _, List.nodup_nil, by simp⟩
  | succ fuel ih =>
    unfold lineage
    rw [if_neg fresh]
    cases hbase : document.base with
    | none => exact .inl ⟨[document], .root, .stop hbase, rfl⟩
    | some base =>
      dsimp only
      cases hfound : source.document? base with
      | none => exact .inl ⟨[document], .unknown base, .stop ⟨hbase, hfound⟩, rfl⟩
      | some parent =>
        have hextends : source.Extends document parent := ⟨base, hbase, hfound⟩
        dsimp only
        by_cases hmet : parent.id ∈ met ++ [document.id]
        · -- the way comes back to an id
          refine .inl ⟨[document], .circular parent.id, .stop ⟨hmet, parent, hextends, rfl⟩, ?_⟩
          unfold lineage
          rw [if_pos hmet]
          rfl
        · obtain ⟨way, ending, hway, hlineage⟩ | ⟨bases, rfl, hbases, hnodup, hfresh⟩ := ih hmet
          · obtain ⟨rest, hrest⟩ := hway.exists_rest
            exact .inl ⟨document :: way, ending, .onward hextends hmet hway,
              by rw [hlineage, ofWay_cons hrest]⟩
          · refine .inr ⟨parent :: bases, rfl, ?_, ?_, ?_⟩
            · exact List.cons_subset.2 ⟨Source.mem_of_document? hfound, hbases⟩
            · refine List.nodup_cons.2 ⟨fun hmem => ?_, hnodup⟩
              obtain ⟨d, hd, hid⟩ := List.mem_map.1 hmem
              exact hfresh d hd (by simp [hid])
            · refine List.forall_mem_cons.2 ⟨hmet, fun d hd hmem => hfresh d hd ?_⟩
              exact List.mem_append_left _ hmem

/-- Every document has a way, and its lineage is what comes of it. -/
theorem exists_way (source : Source) (document : TeamDocument) :
    ∃ way ending, source.Way [] document way ending ∧
      lineage source (mostBases source) [] document = ofWay [] way ending := by
  obtain h | ⟨bases, hlength, hbases, hnodup, -⟩ :=
    lineage_or_long source (mostBases source) (List.not_mem_nil : document.id ∉ [])
  · exact h
  · -- there are not that many documents
    have hmost := (List.Nodup.subperm (List.Nodup.of_map _ hnodup) hbases).length_le
    simp only [List.length_append, Table.values, List.length_map] at hmost
    simp only [mostBases] at hlength
    omega

end Resolution

/-! ## Issues of sections -/

/-- The section in which a cause lies; a broken extension lies in none. -/
def ResolutionCause.sect? : ResolutionCause → Option Section
  | .unknownBase _ | .unknownTeam | .circularExtension _ => none
  | .unknownFragment sect _ | .circularReference sect _ | .duplicateKey sect _
  | .noFields sect .. | .noKey sect | .fragmentShape sect _ | .unwritable sect => some sect

namespace Resolution

variable {source : Source} {sect : Section} {document : TeamDocument}
  {documents : List TeamDocument} {cause : ResolutionCause}

theorem sect_of_mem_expandWith {reference : Json → Expansion} {index : Nat} {elements : List Json}
    (hreference : ∀ name, ∀ cause ∈ (reference name).causes, cause.sect? = some sect)
    (h : cause ∈ (expandWith sect reference index elements).causes) : cause.sect? = some sect := by
  induction elements generalizing index with
  | nil => cases h
  | cons raw rest ih =>
    cases raw <;> simp only [expandWith, Expansion.append, List.mem_append] at h
    case obj fields =>
      obtain h | h := h
      · split at h
        · cases h
        · exact hreference _ _ h
      · exact ih h
    all_goals
      obtain h | h := h
      · rw [List.mem_singleton.1 h]
        rfl
      · exact ih h

theorem sect_of_mem_fault {name : Json} {said : ResolutionCause} (hsaid : said.sect? = some sect)
    (h : cause ∈ (fault sect name said).causes) : cause.sect? = some sect := by
  rw [causes_fault, List.mem_singleton] at h
  split at h
  · exact h ▸ hsaid
  · rw [h]
    rfl

theorem sect_of_mem_splice {stack : List String} {name : Json}
    {deeper : Option (List String → List Json → Expansion)}
    (hdeeper : ∀ f, deeper = some f → ∀ stack elements, ∀ cause ∈ (f stack elements).causes,
      cause.sect? = some sect)
    (h : cause ∈ (splice source sect stack deeper name).causes) : cause.sect? = some sect := by
  unfold splice at h
  dsimp only at h
  cases deeper with
  | none => exact sect_of_mem_fault rfl h
  | some f =>
    dsimp only at h
    repeat' split at h
    all_goals first
      | exact hdeeper f rfl _ _ _ h
      | exact sect_of_mem_fault rfl h
      | rw [List.mem_singleton.1 h]; rfl

theorem sect_of_mem_expand {room : Nat} {stack : List String} {elements : List Json}
    (h : cause ∈ (expand source sect room stack elements).causes) : cause.sect? = some sect := by
  induction room generalizing stack elements cause with
  | zero => exact sect_of_mem_expandWith (fun _ _ => sect_of_mem_splice (by simp)) h
  | succ room ih =>
    refine sect_of_mem_expandWith (fun _ _ => sect_of_mem_splice ?_) h
    rintro f ⟨⟩ stack elements cause
    exact ih

theorem sect_of_mem_layOver {seen : List String} {inherited : Table String Fields}
    {elements : List Fields} (h : cause ∈ (layOver sect seen inherited elements).2) :
    cause.sect? = some sect := by
  induction elements generalizing seen inherited with
  | nil => cases h
  | cons element rest ih =>
    unfold layOver at h
    split at h
    · obtain rfl | h := List.mem_cons.1 h
      · split <;> rfl
      · exact ih h
    · split at h
      · obtain rfl | h := List.mem_cons.1 h
        · rfl
        · exact ih h
      · exact ih h

/-- Every issue of a merged lineage lies in a section of one of its documents. -/
theorem sect_of_mem_merge {layers : Layers} {issue : ResolutionIssue}
    (h : issue ∈ (documents.foldl (Layers.add source) layers).issues) :
    issue ∈ layers.issues ∨
      issue.cause.sect?.isSome ∧ issue.team ∈ documents.map (·.id) := by
  induction documents generalizing layers with
  | nil => exact .inl h
  | cons document rest ih =>
    obtain h | ⟨hsect, hteam⟩ := ih h
    · obtain h | h := List.mem_append.1 h
      · exact .inl h
      · obtain ⟨sect, -, h⟩ := List.mem_flatMap.1 h
        obtain ⟨cause, hcause, rfl⟩ := List.mem_map.1 h
        rw [PerSection.of_ofFunction] at hcause
        have hsect : cause.sect? = some sect :=
          (List.mem_append.1 hcause).elim sect_of_mem_expand sect_of_mem_layOver
        exact .inr ⟨by simp [hsect], by simp⟩
    · exact .inr ⟨hsect, List.mem_cons_of_mem _ hteam⟩

end Resolution

/-- An issue that lies in a section is not of a broken extension. -/
theorem ResolutionIssue.kind_of_sect {issue : ResolutionIssue} (h : issue.cause.sect?.isSome) :
    issue.kind ≠ "unknown_base" ∧ issue.kind ≠ "circular_extends" := by
  obtain ⟨team, cause⟩ := issue
  cases cause <;> simp_all [ResolutionCause.sect?, ResolutionIssue.kind]

/-! ## Resolving -/

/-- A document with a lineage that merges without an issue is resolved to what that makes. -/
theorem Source.resolve_of_clean {source : Source} {document : TeamDocument}
    {documents : List TeamDocument}
    (hlineage : Resolution.lineage source (Resolution.mostBases source) [] document = .ok documents)
    (clean : (Resolution.merge source documents).issues = []) :
    source.resolve document =
      .ok ((Resolution.merge source documents).toMerged document (documents.map (·.id))) := by
  simp [Source.resolve, hlineage, clean]

/-- A document with a lineage that merges with issues fails with them, if they can be written. -/
theorem Source.resolve_of_issues {source : Source} {document : TeamDocument}
    {documents : List TeamDocument}
    (hlineage : Resolution.lineage source (Resolution.mostBases source) [] document = .ok documents)
    (issues : (Resolution.merge source documents).issues ≠ []) :
    source.resolve document =
      .error (if (Resolution.merge source documents).issues.any (·.cause.isUnwritable) then
        .defect .unwritable
      else .issues (Resolution.merge source documents).issues) := by
  simp only [Source.resolve, hlineage, List.isEmpty_iff, issues, if_false]
  split <;> rfl

/-- Whether a document is resolved according to the end of its way. If the way ends at a root, its
documents are merged, with the way reversed for their lineage, and only their sections raise issues,
or a value that an issue cannot name; otherwise the way's end is the only issue. -/
def Source.ResolvesAlong (source : Source) (document : TeamDocument) (way : List TeamDocument) :
    WayEnd → Prop
  | .root =>
    let layers := Resolution.merge source way.reverse
    (layers.issues = [] →
      source.resolve document = .ok (layers.toMerged document (way.map (·.id)).reverse)) ∧
    (layers.issues ≠ [] → source.resolve document =
      .error (if layers.issues.any (·.cause.isUnwritable) then .defect .unwritable
        else .issues layers.issues)) ∧
    ∀ issue ∈ layers.issues, issue.team ∈ way.map (·.id) ∧ issue.cause.sect?.isSome ∧
      issue.kind ≠ "unknown_base" ∧ issue.kind ≠ "circular_extends"
  | .unknown base => ∃ last, way.getLast? = some last ∧
    source.resolve document = .error (.issues [⟨last.id, .unknownBase base⟩])
  | .circular again => source.resolve document =
    .error (.issues [⟨document.id, .circularExtension (way.map (·.id) ++ [again])⟩])

/-- Every document has one way along its extension, with one end: a way of different ids, each
document extending the next one, and it is resolved according to the end. -/
theorem resolve_of_way (source : Source) (document : TeamDocument) :
    ∃ way ending, source.Way [] document way ending ∧
      (∀ way' ending', source.Way [] document way' ending' → way' = way ∧ ending' = ending) ∧
      way.head? = some document ∧ way.IsChain source.Extends ∧ (way.map (·.id)).Nodup ∧
      (∃ last, way.getLast? = some last ∧ source.EndsBehind (way.map (·.id)) last ending) ∧
      source.ResolvesAlong document way ending := by
  obtain ⟨way, ending, hway, hlineage⟩ := Resolution.exists_way source document
  obtain ⟨rest, hrest⟩ := hway.exists_rest
  obtain ⟨last, hlast, hends⟩ := hway.endsBehind
  refine ⟨way, ending, hway, fun _ _ h => h.unique hway, by rw [hrest]; rfl, hway.isChain,
    by simpa using hway.nodup (List.nodup_singleton _), ⟨last, hlast, by simpa using hends⟩, ?_⟩
  cases ending with
  | root =>
    refine ⟨fun hissues => ?_, fun hissues => ?_, fun issue hissue => ?_⟩
    · rw [Source.resolve_of_clean hlineage hissues, List.map_reverse]
    · exact Source.resolve_of_issues hlineage hissues
    · obtain h | ⟨hsect, hteam⟩ := Resolution.sect_of_mem_merge hissue
      · cases h
      · exact ⟨by simpa using hteam, hsect, ResolutionIssue.kind_of_sect hsect⟩
  | unknown base =>
    refine ⟨last, hlast, ?_⟩
    unfold Source.resolve
    rw [hlineage]
    simp [Resolution.ofWay, hlast]
  | circular again =>
    unfold Source.ResolvesAlong Source.resolve
    rw [hlineage, hrest]
    simp [Resolution.ofWay]

/-- Teams that are stored over the built-in ones: one extends a built-in one, two lead to an unknown
one, and three to one another. -/
def sampleExtensions : Source :=
  [sampleTeam "leaf" (some "default") [], sampleTeam "orphan" (some "ghost") [],
    sampleTeam "heir" (some "orphan") [], sampleTeam "ping" (some "pong") [],
    sampleTeam "pong" (some "ping") [], sampleTeam "guest" (some "ping") []].foldl
      Source.putDocument (Source.empty true)

/-- All three ends are met; the way may come back to another document than its first one. -/
theorem resolve_of_way_guest :
    (∃ merged, sampleExtensions.resolve (sampleTeam "leaf" (some "default") []) = .ok merged ∧
      merged.lineage = ["default", "leaf"]) ∧
    sampleExtensions.resolve (sampleTeam "heir" (some "orphan") []) =
      .error (.issues [⟨"orphan", .unknownBase "ghost"⟩]) ∧
    sampleExtensions.resolve (sampleTeam "guest" (some "ping") []) =
      .error (.issues [⟨"guest", .circularExtension ["guest", "ping", "pong", "ping"]⟩]) := by
  refine ⟨?_, ?_, ?_⟩
  · obtain ⟨default, hdefault, hbase⟩ : ∃ default, sampleExtensions.document? "default" =
        some default ∧ default.base = none ∧ default.id = "default" := ⟨_, rfl, rfl, rfl⟩
    obtain ⟨way, ending, -, hunique, -, -, -, -, hresolves⟩ :=
      resolve_of_way sampleExtensions (sampleTeam "leaf" (some "default") [])
    obtain ⟨rfl, rfl⟩ := hunique _ .root
      (.onward ⟨_, rfl, hdefault⟩ (by simp [hbase.2, sampleTeam]) (.stop hbase.1))
    have hclean : (Resolution.merge sampleExtensions
        [default, sampleTeam "leaf" (some "default") []]).issues.isEmpty = true := by
      obtain rfl := Option.some.inj (hdefault.symm.trans rfl)
      decide +kernel
    refine ⟨_, hresolves.1 (List.isEmpty_iff.1 hclean), ?_⟩
    simp [Resolution.Layers.toMerged, hbase.2, sampleTeam]
  · obtain ⟨way, ending, -, hunique, -, -, -, -, hresolves⟩ :=
      resolve_of_way sampleExtensions (sampleTeam "heir" (some "orphan") [])
    obtain ⟨rfl, rfl⟩ := hunique _ (.unknown "ghost")
      (.onward ⟨_, rfl, rfl⟩ (by decide) (.stop ⟨rfl, rfl⟩))
    obtain ⟨last, hlast, hresolve⟩ := hresolves
    obtain rfl := Option.some.inj (hlast.symm.trans rfl)
    exact hresolve
  · obtain ⟨way, ending, -, hunique, -, -, -, -, hresolves⟩ :=
      resolve_of_way sampleExtensions (sampleTeam "guest" (some "ping") [])
    obtain ⟨rfl, rfl⟩ := hunique _ (.circular "ping")
      (.onward ⟨_, rfl, rfl⟩ (by decide) (.onward ⟨_, rfl, rfl⟩ (by decide)
        (.stop ⟨by decide, _, ⟨_, rfl, rfl⟩, rfl⟩)))
    exact hresolves

end Stageflow
