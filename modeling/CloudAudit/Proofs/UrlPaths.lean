import CloudAudit.Proofs.LocationNames
import CloudAudit.Proofs.PercentText
import CloudAudit.Proofs.Success

set_option autoImplicit false

/- Paths of URLs. A URL of the web has a path of segments without slashes, so the path as text tells
the segments apart. Names that are added stand behind it, but for the two that are dots. -/
namespace CloudAudit

namespace Location

/-- Characters without a slash go to the first piece. -/
theorem pieces_append_free {front back : List Char} (free : '/' ∉ front) {piece : List Char}
    {more : List (List Char)} (split : pieces back = piece :: more) :
    pieces (front ++ back) = (front ++ piece) :: more := by
  induction front with
  | nil => exact split
  | cons c rest ih =>
    rw [List.mem_cons, not_or] at free
    rw [List.cons_append, pieces, if_neg (Ne.symm free.1), ih free.2]
    rfl

end Location

namespace UrlPath

/-- Segments that have no slash. -/
def SlashFree (names : List String) : Prop := ∀ name ∈ names, '/' ∉ name.toList

theorem toList_render (names : List String) :
    (segments names).render.toList = names.flatMap fun name => '/' :: name.toList := by
  induction names with
  | nil => rfl
  | cons name rest ih =>
    rw [render, List.map_cons, String.join_cons, String.toList_append, List.flatMap_cons, ← ih]
    simp [render]

theorem pieces_render {names : List String} (free : SlashFree names) :
    Location.pieces (segments names).render.toList = [] :: names.map String.toList := by
  rw [toList_render]
  induction names with
  | nil => rfl
  | cons name rest ih =>
    obtain ⟨own, others⟩ := List.forall_mem_cons.mp free
    rw [List.flatMap_cons, List.cons_append, Location.pieces, if_pos rfl,
      Location.pieces_append_free own (ih others), List.append_nil, List.map_cons]

/-- Paths of segments without slashes are told apart by their text. -/
theorem render_inj {names others : List String} (free : SlashFree names) (free' : SlashFree others) :
    (segments names).render = (segments others).render ↔ names = others := by
  constructor
  · intro same
    have split := pieces_render free
    rw [same, pieces_render free'] at split
    exact (List.map_inj_right fun _ _ => String.toList_inj.mp).mp (List.cons.inj split).2.symm
  · rintro rfl
    rfl

end UrlPath

namespace Url

open UrlPath (SlashFree)

/-! Paths that are read. -/

theorem splitSlashes_ne_nil (special : Bool) (cs : List Char) : splitSlashes special cs ≠ [] := by
  cases cs with
  | nil => simp [splitSlashes]
  | cons c rest =>
    rw [splitSlashes]
    split
    · simp
    · split <;> simp

theorem slash_not_mem_splitSlashes {special : Bool} {cs piece : List Char}
    (member : piece ∈ splitSlashes special cs) : '/' ∉ piece := by
  induction cs generalizing piece with
  | nil => simp_all [splitSlashes]
  | cons c rest ih =>
    rw [splitSlashes] at member
    split at member
    · rcases List.mem_cons.mp member with rfl | later
      · simp
      · exact ih later
    · next plain =>
      have other : '/' ≠ c := by
        rintro rfl
        exact plain rfl
      split at member
      · next empty => exact absurd empty (splitSlashes_ne_nil special rest)
      · next first more split =>
        rw [split] at ih
        rcases List.mem_cons.mp member with rfl | later
        · exact List.not_mem_cons_of_ne_of_not_mem other (ih List.mem_cons_self)
        · exact ih (List.mem_cons_of_mem _ later)

theorem walkSegments_ne_nil {done : List String} {pieces : List (List Char)}
    (some : done ≠ [] ∨ pieces ≠ []) : walkSegments done pieces ≠ [] := by
  induction pieces generalizing done with
  | nil =>
    rw [walkSegments, Ne, List.reverse_eq_nil_iff]
    exact some.resolve_right fun filled => filled rfl
  | cons piece rest ih =>
    rw [walkSegments]
    by_cases last : rest = []
    · subst last
      split
      · exact ih (.inl (by simp))
      · split <;> exact ih (.inl (by simp))
    · split
      · exact ih (.inr last)
      · split <;> exact ih (.inr last)

theorem walkSegments_slashFree {done : List String} {pieces : List (List Char)}
    (before : SlashFree done) (free : ∀ piece ∈ pieces, '/' ∉ piece) :
    SlashFree (walkSegments done pieces) := by
  have empty : '/' ∉ "".toList := by decide
  induction pieces generalizing done with
  | nil =>
    intro name member
    exact before name (List.mem_reverse.mp member)
  | cons piece rest ih =>
    obtain ⟨own, others⟩ := List.forall_mem_cons.mp free
    have ended : ∀ {more : List String}, SlashFree more →
        SlashFree ((if rest = [] then [""] else []) ++ more) := by
      intro more safe name member
      rcases List.mem_append.mp member with added | old
      · split at added
        · rwa [List.mem_singleton.mp added]
        · cases added
      · exact safe name old
    rw [walkSegments]
    split
    · exact ih (ended fun name member => before name (List.mem_of_mem_drop member)) others
    · split
      · exact ih (ended before) others
      · refine ih (List.forall_mem_cons.mpr ⟨?_, before⟩) others
        rw [String.toList_ofList]
        exact not_mem_encode (by decide) (by decide) (.inr own)

/-- A path of the web is a path: it has segments, none of them with a slash. -/
structure IsPath (names : List String) : Prop where
  filled : names ≠ []
  free : SlashFree names

theorem readPath_isPath (cs : List Char) : IsPath (readPath true cs) := by
  cases cs with
  | nil => exact ⟨by simp [readPath], by simp [readPath, SlashFree]⟩
  | cons c rest =>
    rw [readPath]
    exact ⟨walkSegments_ne_nil (.inr (splitSlashes_ne_nil _ _)),
      walkSegments_slashFree (by simp [SlashFree]) fun _ => slash_not_mem_splitSlashes⟩

theorem readWithAuthority_eq_ok {scheme : String} {cs : List Char} {u : Url}
    (read : readWithAuthority scheme cs = .ok u) : u.scheme = scheme ∧
      ∃ text, u.path = .segments (readPath (isSpecialScheme scheme) text) := by
  unfold readWithAuthority at read
  obtain ⟨authority, _, made⟩ := bind_eq_ok.mp read
  obtain rfl := Except.ok.inj made
  exact ⟨rfl, _, rfl⟩

theorem scheme_of_readFile {cs : List Char} {u : Url} (read : readFile cs = .ok u) :
    u.scheme = "file" := by
  unfold readFile at read
  dsimp only at read
  split at read
  · split at read
    · split at read
      · obtain ⟨_, _, made⟩ := bind_eq_ok.mp read
        exact Except.ok.inj made ▸ rfl
      · obtain ⟨_, _, read⟩ := bind_eq_ok.mp read
        obtain ⟨_, _, made⟩ := bind_eq_ok.mp read
        exact Except.ok.inj made ▸ rfl
    · obtain ⟨_, _, made⟩ := bind_eq_ok.mp read
      exact Except.ok.inj made ▸ rfl
  · obtain ⟨_, _, made⟩ := bind_eq_ok.mp read
    exact Except.ok.inj made ▸ rfl

theorem scheme_of_readOther {scheme : String} {cs : List Char} {u : Url}
    (read : readOther scheme cs = .ok u) : u.scheme = scheme := by
  unfold readOther at read
  split at read
  · exact (readWithAuthority_eq_ok read).1
  · obtain rfl := Except.ok.inj read
    rfl

theorem special_of_isHttp {u : Url} (web : u.isHttp = true) :
    u.scheme ≠ "file" ∧ isSpecialScheme u.scheme = true := by
  simp only [isHttp, Bool.or_eq_true, decide_eq_true_eq] at web
  rcases web with same | same <;> rw [same] <;> decide

theorem parse_isPath {text : String} {u : Url} (parsed : parse text = .ok u)
    (web : u.isHttp = true) : ∃ path, u.path = .segments path ∧ IsPath path := by
  obtain ⟨no_file, special⟩ := special_of_isHttp web
  unfold parse at parsed
  split at parsed
  · cases parsed
  · next scheme rest split =>
    split at parsed
    · exact absurd (scheme_of_readFile parsed) no_file
    · split at parsed
      · next known =>
        obtain ⟨_, text, same⟩ := readWithAuthority_eq_ok parsed
        rw [known] at same
        exact ⟨_, same, readPath_isPath text⟩
      · next unknown =>
        rw [scheme_of_readOther parsed] at special
        exact absurd special unknown

/-! Paths that are extended. -/

theorem IsPath.dropEmptyEnd {path : List String} (is_path : IsPath path) :
    IsPath (dropEmptyEnd path) := by
  unfold Url.dropEmptyEnd
  split
  · next closed =>
    obtain ⟨other, last⟩ : path ≠ [""] ∧ path.getLast? = some "" := by simpa using closed
    obtain ⟨front, rfl⟩ := List.getLast?_eq_some_iff.mp last
    rw [List.dropLast_concat]
    refine ⟨?_, fun name member => is_path.free name (List.mem_append_left _ member)⟩
    rintro rfl
    exact other rfl
  · exact is_path

theorem IsPath.append {path : List String} (free : SlashFree path) {text : String}
    (own : '/' ∉ text.toList) : IsPath (path ++ [text]) :=
  ⟨by simp, List.forall_mem_append.mpr ⟨free, by simpa using own⟩⟩

theorem IsPath.appendSegment {path : List String} (is_path : IsPath path) {text : String}
    (own : '/' ∉ text.toList) : IsPath (appendSegment path text) := by
  unfold Url.appendSegment
  split
  · exact ⟨by simp, by simpa [SlashFree] using own⟩
  · exact .append is_path.free own

/-- A name that is added starts one segment at most. -/
theorem IsPath.extendPath {path : List String} (is_path : IsPath path) (special : Bool)
    (name : String) : IsPath (extendPath special path name) := by
  have empty : '/' ∉ "".toList := by decide
  have fewer : SlashFree path.dropLast := fun text member =>
    is_path.free text ((List.dropLast_sublist path).subset member)
  have slash : inSegment special '/' = true := by cases special <;> decide
  unfold Url.extendPath
  split
  · exact is_path
  · dsimp only
    split
    · split
      · exact ⟨by simp, by simp [SlashFree]⟩
      · exact .append fewer empty
    · split
      · exact is_path.appendSegment empty
      · refine is_path.appendSegment ?_
        rw [String.toList_ofList, segmentText_eq]
        exact not_mem_encode (by decide) (by decide) (.inl slash)

/-- How many segments a path shows; that of a slash alone shows none. -/
def shownSegments (path : List String) : Nat := if path = [""] then 0 else path.length

theorem shownSegments_le (path : List String) : shownSegments path ≤ path.length := by
  unfold shownSegments
  split <;> omega

theorem shownSegments_appendSegment (path : List String) (text : String) :
    shownSegments (appendSegment path text) ≤ shownSegments path + 1 := by
  have bound := shownSegments_le (appendSegment path text)
  unfold appendSegment at bound ⊢
  split at bound
  · next slash =>
    rw [if_pos slash]
    simp at bound
    omega
  · next other =>
    have whole : shownSegments path = path.length := if_neg other
    rw [if_neg other]
    simp at bound
    omega

theorem shownSegments_extendPath (special : Bool) (path : List String) (name : String) :
    shownSegments (extendPath special path name) ≤ shownSegments path + 1 := by
  unfold extendPath
  split
  · omega
  · dsimp only
    split
    · split
      · simp [shownSegments]
      · next other =>
        have bound := shownSegments_le (path.dropLast ++ [""])
        have whole : shownSegments path = path.length := if_neg other
        simp at bound
        omega
    · split <;> exact shownSegments_appendSegment _ _

/-- Names that are added to a path. -/
def extended (special : Bool) (path names : List String) : List String :=
  names.foldl (extendPath special) path

theorem IsPath.extended {path : List String} (is_path : IsPath path) (special : Bool)
    (names : List String) : IsPath (extended special path names) := by
  induction names generalizing path with
  | nil => exact is_path
  | cons name rest ih => exact ih (is_path.extendPath special name)

theorem shownSegments_extended (special : Bool) (path names : List String) :
    shownSegments (extended special path names) ≤ shownSegments path + names.length := by
  induction names generalizing path with
  | nil => exact Nat.le_refl _
  | cons name rest ih =>
    have first := shownSegments_extendPath special path name
    have others := ih (extendPath special path name)
    rw [List.length_cons]
    exact Nat.le_trans others (by omega)

/-- A path with texts behind it. One that is only a slash gives way to the first that is not
empty. -/
def joined (path texts : List String) : List String :=
  if path = [""] then
    match texts.dropWhile (· = "") with
    | [] => [""]
    | shown => shown
  else path ++ texts

theorem joined_slash_cons (text : String) (texts : List String) :
    joined [""] (text :: texts) = if text = "" then joined [""] texts else text :: texts := by
  by_cases empty : text = "" <;> simp [joined, empty]

theorem joined_of_ne {path : List String} (other : path ≠ [""]) (texts : List String) :
    joined path texts = path ++ texts := if_neg other

theorem foldl_appendSegment {path : List String} (filled : path ≠ []) (texts : List String) :
    texts.foldl appendSegment path = joined path texts := by
  induction texts generalizing path with
  | nil =>
    unfold joined
    split
    · next slash => rw [slash]; rfl
    · exact (List.append_nil _).symm
  | cons text rest ih =>
    rw [List.foldl_cons]
    by_cases slash : path = [""]
    · subst slash
      rw [appendSegment, if_pos rfl, ih (List.cons_ne_nil _ _), joined_slash_cons]
      by_cases empty : text = ""
      · rw [if_pos empty, empty]
      · rw [if_neg empty, joined_of_ne (by simpa using empty), List.singleton_append]
    · have longer : path ++ [text] ≠ [""] := by
        intro same
        have sizes := congrArg List.length same
        have positive := List.length_pos_iff.mpr filled
        simp at sizes
        exact filled sizes
      rw [appendSegment, if_neg slash, ih (by simp), joined_of_ne longer, joined_of_ne slash,
        List.append_assoc, List.singleton_append]

/-- Behind an empty text there are too few for a path that starts with another one. -/
theorem joined_slash_ne {text : String} {texts others : List String} (filled : text ≠ "")
    (size : texts.length = others.length) : joined [""] texts ≠ text :: others := by
  have short : ∀ texts : List String,
      joined [""] texts = [""] ∨ (joined [""] texts).length ≤ texts.length := by
    intro texts
    induction texts with
    | nil => exact .inl rfl
    | cons first rest ih =>
      rw [joined_slash_cons]
      split
      · exact ih.imp_right Nat.le_succ_of_le
      · exact .inr (Nat.le_refl _)
  intro same
  rcases short texts with slash | bound
  · exact filled (List.cons.inj (same.symm.trans slash)).1
  · rw [same, List.length_cons] at bound
    omega

/-- Lists of one length that are joined to the same are the same. -/
theorem joined_inj {path texts others : List String} (size : texts.length = others.length) :
    joined path texts = joined path others ↔ texts = others := by
  refine ⟨fun same => ?_, fun same => by rw [same]⟩
  by_cases slash : path = [""]
  · subst slash
    induction texts generalizing others with
    | nil => exact (List.length_eq_zero_iff.mp size.symm).symm
    | cons text rest ih =>
      cases others with
      | nil => cases size
      | cons other more =>
        have rest_size : rest.length = more.length := Nat.succ.inj size
        rw [joined_slash_cons, joined_slash_cons] at same
        split at same <;> split at same
        · next empty empty' => rw [empty, empty', ih rest_size same]
        · next filled => exact absurd same (joined_slash_ne filled rest_size)
        · next filled _ => exact absurd same.symm (joined_slash_ne filled rest_size.symm)
        · exact same
  · rw [joined_of_ne slash, joined_of_ne slash] at same
    exact List.append_cancel_left same

/-! Names that are added. -/

/-- A name as it stands in a path. -/
def segment (special : Bool) (name : String) : String := String.ofList (segmentText special name)

/-- The names that are left out. -/
def isDots (name : String) : Bool := name = "." || name = ".."

/-- A name that is more than dots, also when its ignored characters are gone. -/
def Named (name : String) : Prop := kept name ≠ ['.'] ∧ kept name ≠ ['.', '.']

instance (name : String) : Decidable (Named name) := inferInstanceAs (Decidable (_ ∧ _))

/-- Ignored characters do not make dots of a name. -/
def Steady (name : String) : Prop := isDots name = true ∨ Named name

theorem Named.not_dots {name : String} (named : Named name) : isDots name = false := by
  have single : name ≠ "." := by
    rintro rfl
    exact named.1 (by decide)
  have double : name ≠ ".." := by
    rintro rfl
    exact named.2 (by decide)
  simp [isDots, single, double]

theorem segment_inj {special : Bool} {name other : String} :
    segment special name = segment special other ↔ kept name = kept other := by
  rw [segment, segment, String.ofList_inj, segmentText_inj]

theorem segment_eq_empty {special : Bool} {name : String} :
    segment special name = "" ↔ kept name = [] :=
  @segment_inj special name ""

theorem extendPath_steady {name : String} (steady : Steady name) (special : Bool)
    (path : List String) : extendPath special path name =
      if isDots name then path else appendSegment path (segment special name) := by
  unfold extendPath
  change (if isDots name = true then _ else _) = _
  by_cases dots : isDots name = true
  · rw [if_pos dots, if_pos dots]
  · obtain ⟨dot, dot_dot⟩ := steady.resolve_left dots
    have no_dot := (@isDot_segmentText special name).not.mpr dot
    have no_dot_dot := (@isDotDot_segmentText special name).not.mpr dot_dot
    simp only [dots, no_dot, no_dot_dot, Bool.false_eq_true, ↓reduceIte]
    rfl

/-- Names stand behind the path as they are written, without those that are left out. -/
theorem extended_steady {special : Bool} {path names : List String} (filled : path ≠ [])
    (steady : ∀ name ∈ names, Steady name) : extended special path names =
      joined path ((names.filter fun name => !isDots name).map (segment special)) := by
  rw [← foldl_appendSegment filled]
  induction names generalizing path with
  | nil => rfl
  | cons name rest ih =>
    obtain ⟨own, others⟩ := List.forall_mem_cons.mp steady
    rw [extended, List.foldl_cons, extendPath_steady own]
    by_cases dots : isDots name = true
    · rw [if_pos dots, List.filter_cons_of_neg (by simp [dots])]
      exact ih filled others
    · have next : appendSegment path (segment special name) ≠ [] := by
        unfold appendSegment
        split <;> simp
      rw [if_neg dots, List.filter_cons_of_pos (by simp [dots])]
      exact ih next others

/-- Names that are more than dots are all kept. -/
theorem filter_named {names : List String} (named : ∀ name ∈ names, Named name) :
    names.filter (fun name => !isDots name) = names :=
  List.filter_eq_self.mpr fun name member => by rw [(named name member).not_dots]; rfl

/-- The path in front of names that are added. -/
def lead (path : List String) : List String := if path = [""] then [] else path

theorem map_segment_inj {special : Bool} {names others : List String} :
    names.map (segment special) = others.map (segment special) ↔
      names.map kept = others.map kept := by
  have own : Function.Injective (String.ofList ∘ encode (inSegment special)) :=
    fun cs ds same => encode_injective (inSegment_percent special) (String.ofList_inj.mp same)
  have written : ∀ l : List String, l.map (segment special) =
      (l.map kept).map (String.ofList ∘ encode (inSegment special)) := by
    intro l
    rw [List.map_map]
    rfl
  rw [written, written]
  exact (List.map_injective_iff.mpr own).eq_iff

/-- Nothing is lost of names that are added, unless an empty one stands right behind a slash. -/
theorem joined_whole {special : Bool} {path : List String} {first : String} {rest : List String}
    (shown : path = [""] → kept first ≠ []) : joined path ((first :: rest).map (segment special)) =
      lead path ++ (first :: rest).map (segment special) := by
  rw [lead]
  by_cases slash : path = [""]
  · rw [if_pos slash, slash, List.map_cons, joined_slash_cons,
      if_neg (segment_eq_empty.not.mpr (shown slash)), List.nil_append]
  · rw [if_neg slash, joined_of_ne slash]

theorem shownSegments_lead_append (path : List String) {texts : List String}
    (several : 1 < texts.length) : shownSegments (lead path ++ texts) =
      shownSegments path + texts.length := by
  have longer : lead path ++ texts ≠ [""] := by
    intro same
    have sizes := congrArg List.length same
    rw [List.length_append, List.length_singleton] at sizes
    omega
  rw [shownSegments, if_neg longer, List.length_append, lead, shownSegments]
  split <;> simp

/-- Fewer names make another path. -/
theorem lead_append_ne {path texts after : List String} (several : 1 < texts.length)
    (fewer : shownSegments after < shownSegments path + texts.length) :
    lead path ++ texts ≠ after := by
  rintro rfl
  rw [shownSegments_lead_append path several] at fewer
  exact Nat.lt_irrefl _ fewer

end Url

end CloudAudit
