import Stageflow.Project.Folder
import Stageflow.Proofs.Identifiers
import Stageflow.Proofs.References
import Stageflow.Proofs.Regimes.Session

/-!
# The words that serve as ids

An id is a word of 1 to 64 characters: an ASCII letter or digit, then letters, digits, underscores,
dots and hyphens. Such a word is safe as the name of a file and in the log. What is accepted as an
id is such a word, or one with a line end behind it. All ids of a workflow, and that of its team,
were accepted when they were read, so the same can be said of every version that is ever activated.

## Main statements

* `Text.isIdentifier_iff` — which texts are accepted.
* `Text.IsId.safe` — an id leads one step down from every folder, and is written as it stands.
* `ids_are_words` — what is read as an id, and what the ids of activated workflows are like.
-/

namespace Stageflow

/-! ## Words -/

namespace Text

/-- Whether a character is an ASCII letter or an ASCII digit. -/
def IsLetterOrDigit (c : Char) : Prop :=
  ('A' ≤ c ∧ c ≤ 'Z') ∨ ('a' ≤ c ∧ c ≤ 'z') ∨ ('0' ≤ c ∧ c ≤ '9')

/-- Whether a text is an id: 1 to 64 characters, of which the first is an ASCII letter or digit, and
each of the others is one or an underscore, a dot or a hyphen. -/
structure IsId (s : String) : Prop where
  length_pos : 1 ≤ s.length
  length_le : s.length ≤ 64
  first : ∀ c ∈ s.toList.head?, IsLetterOrDigit c
  others : ∀ c ∈ s.toList.tail, IsLetterOrDigit c ∨ c = '_' ∨ c = '.' ∨ c = '-'

/-- Whether a text is an id, or an id with a line end behind it. -/
def IsAccepted (s : String) : Prop := IsId s ∨ ∃ word, IsId word ∧ s = word ++ "\n"

/-- Whether a text is safe as the name of a file and in the log. With any suffix it leads one step
down from every folder; it is written in JSON as it stands; and all its characters are visible. -/
structure IsSafe (s : String) : Prop where
  file : ∀ (folder : Path) (suffix : String), '/' ∉ suffix.toList →
    folder.follow (s ++ suffix) = folder ++ [s ++ suffix]
  field : (Json.str s).compact = "\"" ++ s ++ "\""
  visible : ∀ c ∈ s.toList, '!' ≤ c ∧ c ≤ '~'

theorem isAlphanum_iff {c : Char} : c.isAlphanum ↔ IsLetterOrDigit c := by
  delta Char.isAlphanum Char.isAlpha Char.isUpper Char.isLower Char.isDigit
  simp only [Bool.or_eq_true, decide_eq_true_eq, Bool.and_eq_true, IsLetterOrDigit, Char.le_def,
    or_assoc, ge_iff_le]

theorem continuesId_iff {c : Char} :
    continuesId c ↔ IsLetterOrDigit c ∨ c = '_' ∨ c = '.' ∨ c = '-' := by
  simp [continuesId, ← isAlphanum_iff, or_assoc]

theorem isIdWord_iff {s : String} : isIdWord s.toList ↔ IsId s := by
  cases hs : s.toList with
  | nil =>
    have hlength : s.length = 0 := by rw [← String.length_toList, hs]; rfl
    refine ⟨nofun, fun h => ?_⟩
    have := h.length_pos
    omega
  | cons c cs =>
    have hlength : s.length = cs.length + 1 := by rw [← String.length_toList, hs]; rfl
    simp only [isIdWord, startsId, Bool.and_eq_true, List.all_eq_true, decide_eq_true_eq,
      isAlphanum_iff, continuesId_iff]
    constructor
    · rintro ⟨⟨hfirst, hothers⟩, hshort⟩
      exact ⟨by omega, by omega, by simpa [hs] using hfirst, by simpa [hs] using hothers⟩
    · rintro ⟨-, hle, hfirst, hothers⟩
      rw [hs] at hfirst hothers
      exact ⟨⟨hfirst c rfl, hothers⟩, by omega⟩

instance (s : String) : Decidable (IsId s) := decidable_of_iff _ isIdWord_iff

/-- The characters of ids are visible; none of them parts names, and none is escaped. -/
theorem plain_of_continuesId {c : Char} (h : continuesId c) :
    ('!' ≤ c ∧ c ≤ '~') ∧ c ≠ '/' ∧ Json.escapeChar c = c.toString := by
  have hascii : c.toNat < 128 := by
    obtain hletter | rfl | rfl | rfl := continuesId_iff.1 h
    · simp only [IsLetterOrDigit, Char.le_def, UInt32.le_iff_toNat_le] at hletter
      have : c.toNat = c.val.toNat := rfl
      have : 'Z'.val.toNat = 90 := rfl
      have : 'z'.val.toNat = 122 := rfl
      have : '9'.val.toNat = 57 := rfl
      omega
    all_goals decide
  have hall : ∀ n < 128, continuesId (Char.ofNat n) → ('!' ≤ Char.ofNat n ∧ Char.ofNat n ≤ '~') ∧
      Char.ofNat n ≠ '/' ∧ Json.escapeChar (Char.ofNat n) = (Char.ofNat n).toString := by
    decide +kernel
  have hc := hall c.toNat hascii
  rw [Char.ofNat_toNat] at hc
  exact hc h

namespace IsId

variable {s : String} {c : Char}

theorem exists_cons (h : IsId s) : ∃ c cs, s.toList = c :: cs ∧ c.isAlphanum := by
  obtain ⟨c, cs, hs⟩ := List.exists_cons_of_length_pos (String.length_toList ▸ h.length_pos)
  exact ⟨c, cs, hs, isAlphanum_iff.2 (h.first c (by rw [hs]; rfl))⟩

/-- Every character of an id may continue one. -/
theorem continues (h : IsId s) (hc : c ∈ s.toList) : continuesId c := by
  obtain ⟨d, ds, hs, hd⟩ := h.exists_cons
  have hothers := h.others
  rw [hs] at hc hothers
  obtain rfl | hc := List.mem_cons.1 hc
  · exact continuesId_iff.2 (.inl (isAlphanum_iff.1 hd))
  · exact continuesId_iff.2 (hothers c hc)

/-- With any suffix that has no slash, an id leads one step down. -/
theorem follow_eq (h : IsId s) (folder : Path) {suffix : String} (plain : '/' ∉ suffix.toList) :
    folder.follow (s ++ suffix) = folder ++ [s ++ suffix] := by
  have hslash : '/' ∉ (s ++ suffix).toList := by
    rw [String.toList_append, List.mem_append, not_or]
    exact ⟨fun hmem => (plain_of_continuesId (h.continues hmem)).2.1 rfl, plain⟩
  obtain ⟨c, cs, hs, hc⟩ := h.exists_cons
  have hname : (s ++ suffix).toList = c :: (cs ++ suffix.toList) := by
    rw [String.toList_append, hs, List.cons_append]
  -- neither the folder itself nor the one above is called so, since those names begin with a dot
  have hstep : Path.step folder (s ++ suffix) = folder ++ [s ++ suffix] := by
    have hne : ∀ name : String, name.toList.head? ≠ some c → s ++ suffix ≠ name := by
      rintro _ hhead rfl
      exact hhead (by rw [hname]; rfl)
    have hdot : ('.' : Char) ≠ c := by
      rintro rfl
      cases hc
    simp [Path.step, hne "" (by simp), hne "." (by simpa using hdot),
      hne ".." (by simpa using hdot)]
  have hroot : (s ++ suffix).toList.head? ≠ some '/' := by
    intro hhead
    exact hslash (List.mem_of_mem_head? hhead)
  rw [Path.follow, if_neg hroot, List.splitOn_eq_singleton hslash]
  simpa using hstep

/-- An id is written in JSON as it stands. -/
theorem compact_eq (h : IsId s) : (Json.str s).compact = "\"" ++ s ++ "\"" := by
  have hchars : s.toList.map Json.escapeChar = s.toList.map Char.toString :=
    List.map_congr_left fun c hc => (plain_of_continuesId (h.continues hc)).2.2
  have hjoin : String.join (s.toList.map Char.toString) = s := by
    rw [← String.toList_inj, String.toList_join, List.flatMap_map]
    simp [Char.toString]
  show Json.stringText s = _
  rw [Json.stringText, hchars, hjoin]

theorem safe (h : IsId s) : IsSafe s where
  file folder _ := h.follow_eq folder
  field := h.compact_eq
  visible _ hc := (plain_of_continuesId (h.continues hc)).1

/-- An id does not end in a line end. -/
theorem dropLineEnd_eq (h : IsId s) : dropLineEnd s.toList = s.toList := by
  refine if_neg fun hlast => ?_
  have hvisible := (plain_of_continuesId (h.continues (List.mem_of_getLast? hlast))).1
  exact absurd hvisible (by decide)

end IsId

/-- An id is accepted, alone or with a line end behind it, and nothing else is. -/
theorem isIdentifier_iff {s : String} : isIdentifier s ↔ IsAccepted s := by
  constructor
  · intro h
    unfold isIdentifier dropLineEnd at h
    split at h
    · rename_i hlast
      have hs : s = String.ofList s.toList.dropLast ++ "\n" := by
        rw [← String.toList_inj, String.toList_append, String.toList_ofList]
        exact (List.dropLast_append_getLast? _ hlast).symm
      exact .inr ⟨_, isIdWord_iff.1 (by rwa [String.toList_ofList]), hs⟩
    · exact .inl (isIdWord_iff.1 h)
  · rintro (h | ⟨word, h, rfl⟩)
    · rw [isIdentifier, h.dropLineEnd_eq]
      exact isIdWord_iff.2 h
    · have hdrop : dropLineEnd (word ++ "\n").toList = word.toList := by
        simp [dropLineEnd, String.toList_append]
      rw [isIdentifier, hdrop]
      exact isIdWord_iff.2 h

/-- Of the texts that are accepted, the ids are the ones that are safe. -/
theorem IsAccepted.isSafe_iff {s : String} (h : IsAccepted s) : IsSafe s ↔ IsId s := by
  refine ⟨fun safe => h.resolve_right ?_, IsId.safe⟩
  rintro ⟨word, -, rfl⟩
  have hvisible := safe.visible '\n' (by simp [String.toList_append])
  exact absurd hvisible (by decide)

end Text

/-! ## Reading -/

/-- What is read as an id is a text that is accepted. -/
theorem identifier_eq_ok {what id : String} {value : Json} :
    identifier what value = .ok id ↔ value = .str id ∧ Text.IsAccepted id := by
  unfold identifier
  split
  · rename_i s
    split <;> rename_i h
    · have haccepted := Text.isIdentifier_iff.1 h
      constructor
      · rintro ⟨⟩
        exact ⟨rfl, haccepted⟩
      · rintro ⟨⟨⟩, -⟩
        rfl
    · refine ⟨nofun, ?_⟩
      rintro ⟨⟨⟩, haccepted⟩
      exact absurd (Text.isIdentifier_iff.2 haccepted) h
  · rename_i hnot
    exact ⟨nofun, fun h => absurd h.1 (hnot id)⟩

/-- Whatever else is refused, by a message that quotes it. -/
theorem identifier_eq_error {what : String} {value : Json}
    (h : ∀ id, value = .str id → ¬ Text.IsAccepted id) :
    identifier what value = .error (.badId what value) := by
  unfold identifier
  split
  · rename_i s
    exact if_neg fun hs => h s rfl (Text.isIdentifier_iff.1 hs)
  · rfl

theorem ReadsId.isAccepted {what id : String} {raw : Json} (h : ReadsId what raw id) :
    Text.IsAccepted id := by
  obtain ⟨_, _, -, -, hid⟩ := h
  exact (identifier_eq_ok.1 hid).2

/-! ## Sources -/

/-- Whether every document of a source was read. -/
def Source.IsRead (source : Source) : Prop :=
  ∀ team document, source.document? team = some document →
    ∃ raw, TeamDocument.parse raw = .ok document

/-- The id of a document that was read is accepted. -/
theorem TeamDocument.isAccepted_id {raw : Json} {document : TeamDocument}
    (h : parse raw = .ok document) : Text.IsAccepted document.id := by
  unfold parse at h
  split at h
  · obtain ⟨team, -, h⟩ := bind_eq_ok.1 h
    obtain ⟨id, hid, h⟩ := bind_eq_ok.1 h
    obtain ⟨sections, -, h⟩ := bind_eq_ok.1 h
    obtain ⟨base, -, h⟩ := bind_eq_ok.1 h
    obtain ⟨version, -, h⟩ := bind_eq_ok.1 h
    cases h
    exact (identifier_eq_ok.1 hid).2
  · cases h

namespace Source.IsRead

variable {source other : Source}

theorem putDocument (h : source.IsRead) {raw : Json} {document : TeamDocument}
    (read : TeamDocument.parse raw = .ok document) : (source.putDocument document).IsRead :=
  Source.forall_document?_putDocument ⟨raw, read⟩ h

theorem edited (h : source.IsRead) (edited : source.Edited other) : other.IsRead := by
  cases edited with
  | same => exact h
  | document read => exact h.putDocument read
  | fragment => exact h

/-- Where all documents in store and all templates were read, all documents were. -/
theorem of_forall_mem (read : ∀ document ∈ source.documents.values ++ source.templates.values,
    ∃ raw, TeamDocument.parse raw = .ok document) : source.IsRead :=
  fun _ document found => read document (Source.mem_of_document? found)

end Source.IsRead

/-- The built-in documents were read. -/
theorem Builtin.read_templates : ∀ p ∈ templates, ∃ raw, TeamDocument.parse raw = .ok p.2 := by
  unfold templates
  split
  · rename_i document hdocument
    simpa using ⟨.obj defaultTemplate, hdocument⟩
  · simp

/-- Where the templates are built-in ones, all documents of a source without stored ones were read.
-/
theorem Source.isRead_of_templates {source : Source} (documents : source.documents = [])
    (templates : ∀ p ∈ source.templates, p ∈ Builtin.templates) : source.IsRead := by
  refine .of_forall_mem fun document hdocument => ?_
  rw [documents] at hdocument
  obtain ⟨p, hp, rfl⟩ := List.mem_map.1 hdocument
  exact Builtin.read_templates p (templates p hp)

theorem Source.keyed_empty (builtins : Bool) : (Source.empty builtins).Keyed := by
  have htemplates : ∀ p ∈ Builtin.templates, p.2.id = p.1 := by decide +kernel
  intro team document h
  cases builtins
  · cases h
  · exact htemplates (team, document) (Table.mem_of_get? h)

theorem Source.isRead_empty (builtins : Bool) : (Source.empty builtins).IsRead := by
  cases builtins
  · exact isRead_of_templates rfl nofun
  · exact isRead_of_templates rfl fun _ hp => hp

/-! ## Workflows -/

/-- The ids of a workflow: that of its team, and those of its stages, statuses, levels, rules and
thresholds. -/
def Workflow.ids (w : Workflow) : List String :=
  w.team :: (w.stages.map (·.id) ++ w.statuses.map (·.id) ++ w.levels.map (·.id) ++
    w.rules.map (·.id) ++ w.thresholds.map (·.id))

/-- Elements that are read with their ids have accepted ones. -/
theorem forall_isAccepted {α : Type} {parse : Json → Except Defect α} {name : α → String}
    {what : String} {raws : List Json} {xs : List α}
    (reads : List.Forall₂ (parse · = .ok ·) raws xs)
    (readsId : ∀ {raw x}, parse raw = .ok x → ReadsId what raw (name x)) :
    ∀ id ∈ xs.map name, Text.IsAccepted id := by
  induction reads with
  | nil => nofun
  | cons hraw _ ih => exact List.forall_mem_cons.2 ⟨(readsId hraw).isAccepted, ih⟩

/-- What is compiled of a document that was read has accepted ids only. -/
theorem compile_accepted {source : Source} {document : TeamDocument} {merged : MergedDocument}
    {version : Int} {w : Workflow} (accepted : Text.IsAccepted document.id)
    (hmerged : source.resolve document = .ok merged) (hcompile : merged.compile version = .ok w) :
    ∀ id ∈ w.ids, Text.IsAccepted id := by
  obtain ⟨d, -, reads, -, -, -, -, -, hstages, hstatuses, -, hlevels, hrules, hthresholds, -⟩ :=
    compile_reads hcompile
  have hteam : w.team = document.id := (compile_names hcompile).1.trans (Run.team_resolve hmerged)
  simp only [Workflow.ids, List.forall_mem_cons, List.forall_mem_append, hteam, hstages, hstatuses,
    hlevels, hrules, hthresholds]
  exact ⟨accepted, ⟨⟨⟨forall_isAccepted reads.stages Stage.readsId,
    forall_isAccepted reads.statuses Status.readsId⟩,
    forall_isAccepted reads.levels Level.readsId⟩,
    forall_isAccepted reads.rules Rule.readsId⟩,
    forall_isAccepted reads.thresholds Threshold.readsId⟩

/-! ## Sessions -/

/-- Whether all ids of all versions are accepted. -/
def Registry.IsNamed (registry : Registry) : Prop :=
  ∀ team version w, registry.version? team version = some w → ∀ id ∈ w.ids, Text.IsAccepted id

/-- All documents were read, and all ids of all versions are accepted. There is one setting only. -/
def naming : Regime Unit where
  holds _ s := s.source.IsRead ∧ s.registry.IsNamed
  hears _ _ := True
  level _ _ := True
  within _ _ := ()
  during _ _ := ()
  idle _ := True

theorem naming.lawful : naming.Lawful where
  beside h hst := ⟨h.1.edited hst.source, hst.registry ▸ h.2⟩
  quiet _ h := h
  saved _ h _ _ := h
  rebound _ _ h _ := ⟨(), trivial, h⟩
  created _ _ _ h _ _ _ _ := ⟨(), trivial, trivial, h⟩
  committed _ _ h _ _ _ := ⟨trivial, h⟩
  learned h _ _ := h
  published h hdocument hmerged hcompile := by
    obtain ⟨raw, hread⟩ := h.1 _ _ hdocument
    exact ⟨h.1, Registry.forall_version?_publish
      (compile_accepted (TeamDocument.isAccepted_id hread) hmerged hcompile) h.2⟩
  told h _ _ := h
  armed h _ _ _ _ := h
  served h _ _ _ := h
  broken h _ _ _ := h
  ruleless h _ _ := h
  promoted _ h _ _ := h
  fired _ h := h
  began _ h _ := ⟨trivial, h⟩
  ended h := h
  measured _ := trivial
  alerted _ _ := trivial
  stamped _ _ := trivial
  ground _ := trivial

theorem Operation.admits_naming (op : Operation) : naming.Admits () op := by
  cases op <;> trivial

/-- What is read as an id is a text of 1 to 64 characters, an ASCII letter or digit and then
letters, digits, underscores, dots and hyphens, alone or with a line end behind it; any other value
is refused. So it is with all ids of all versions that are activated in a session, that of the team
and those of stages, statuses, levels, rules and thresholds, if the documents that it begins with
were read. Those without a line end are safe as the names of files and in the log. -/
theorem ids_are_words {s : System} (new : s.New) (read : s.source.IsRead)
    (named : s.registry.IsNamed) (ops : List Operation) :
    (∀ what value,
        (∀ id, identifier what value = .ok id ↔ value = .str id ∧ Text.IsAccepted id) ∧
        ((∀ id, value = .str id → ¬ Text.IsAccepted id) →
          identifier what value = .error (.badId what value))) ∧
      (∀ team version w, (s.through ops).registry.version? team version = some w →
        ∀ id ∈ w.ids, Text.IsAccepted id) ∧
      ∀ id, Text.IsAccepted id → (Text.IsSafe id ↔ Text.IsId id) := by
  have hstart : naming.Stands () s := new.stands ⟨read, named⟩
  obtain ⟨_, -, hstands⟩ := Regime.stands_through naming.lawful
    (fun op _ _ _ => op.admits_naming) trivial hstart
  exact ⟨fun _ _ => ⟨fun _ => identifier_eq_ok, identifier_eq_error⟩, hstands.holds.2,
    fun _ => Text.IsAccepted.isSafe_iff⟩

/-- A team that extends the built-in one by a rule whose id has a line end behind it. -/
def lineEndSession : List Operation := [
  .putDocument (.obj [
    ("team", .obj [("id", .str "crew")]), ("extends", .str "default"),
    ("automation", .arr [.obj [("id", .str "remind\n"), ("trigger", .str "transition")]])]),
  .activate "crew"]

/-- With the built-in documents, the team is activated. Its rule keeps the line end, and is the only
one of its kind. -/
theorem ids_are_words_lineEnd :
    let s : System := { source := Source.empty true }
    s.New ∧ s.source.IsRead ∧ s.registry.IsNamed ∧
      ∃ w, (s.through lineEndSession).registry.version? "crew" 1 = some w ∧
        w.ids.filter (fun id => ¬ Text.IsId id) = ["remind\n"] ∧
        (∀ id ∈ w.ids, Text.IsAccepted id) ∧ ¬ Text.IsSafe "remind\n" ∧
        ∀ id ∈ w.ids, id ≠ "remind\n" → Text.IsSafe id := by
  intro s
  have new : s.New := ⟨rfl, rfl, rfl, Source.keyed_empty true⟩
  have read : s.source.IsRead := Source.isRead_empty true
  have named : s.registry.IsNamed := fun _ _ _ h => by cases h
  have hids : ∃ w ∈ (s.through lineEndSession).registry.version? "crew" 1,
      w.ids.filter (fun id => ¬ Text.IsId id) = ["remind\n"] := by
    decide +kernel
  obtain ⟨w, hw, hfilter⟩ := hids
  obtain ⟨-, haccepted, hsafe⟩ := ids_are_words new read named lineEndSession
  have hw' := haccepted _ _ _ hw
  have hword : ∀ id ∈ w.ids, id ≠ "remind\n" → Text.IsId id := by
    intro id hid hne
    by_contra hnot
    have hmem : id ∈ w.ids.filter (fun id => ¬ Text.IsId id) :=
      List.mem_filter.2 ⟨hid, by simpa using hnot⟩
    rw [hfilter] at hmem
    exact hne (List.mem_singleton.1 hmem)
  have hremind : "remind\n" ∈ w.ids := List.mem_of_mem_filter (hfilter ▸ List.mem_singleton_self _)
  exact ⟨new, read, named, w, hw, hfilter, hw',
    fun safe => absurd ((hsafe _ (hw' _ hremind)).1 safe) (by decide),
    fun id hid hne => (hsafe id (hw' id hid)).2 (hword id hid hne)⟩

/-- An id with a line end behind it is read, and is not an id. -/
theorem identifier_line_end :
    identifier "status" (.str "ab\n") = .ok "ab\n" ∧ ¬ Text.IsId "ab\n" :=
  ⟨rfl, by decide⟩

end Stageflow
