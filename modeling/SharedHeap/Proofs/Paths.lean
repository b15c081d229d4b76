import SharedHeap.Path

/-! # A directory and a file in it

A path that ends with a name leads to a file in a directory. Both are read off its segments from the
end, where empty segments and dots are passed over. Put together again they have the components of the
path, whatever was passed over: only a path that is a single name gains a dot at its front. Nothing
but slashes and dots is looked at, so characters may stand for the bytes of a path that is no text. -/

namespace SharedHeap.Path

variable {path first last : String} {before kept idles segs : List String}

/-! ## Segments -/

theorem segments_ne_nil (path : String) : segments path ≠ [] := by
  simp [segments, Text.pieces_ne_nil]

theorem slash_not_mem_segment (path : String) (h : last ∈ segments path) : '/' ∉ last.toList := by
  obtain ⟨piece, hp, rfl⟩ := List.mem_map.mp h
  rw [String.toList_ofList]
  exact Text.separator_not_mem_pieces hp

theorem segments_of_no_slash (h : '/' ∉ path.toList) : segments path = [path] := by
  simp [segments, Text.pieces_of_not_mem h]

theorem segments_append_slash (a b : String) :
    segments (a ++ "/" ++ b) = segments a ++ segments b := by
  have hlist : (a ++ "/" ++ b).toList = a.toList ++ '/' :: b.toList := by simp
  rw [segments, hlist, Text.pieces_append_cons, List.map_append]
  rfl

/-- Segments put together again with slashes are the segments of what results. -/
theorem segments_intercalate (hne : segs ≠ []) (h : ∀ s ∈ segs, '/' ∉ s.toList) :
    segments ("/".intercalate segs) = segs := by
  induction segs with
  | nil => exact absurd rfl hne
  | cons s rest ih =>
    have hs := segments_of_no_slash (h s List.mem_cons_self)
    cases rest with
    | nil => rw [String.intercalate_singleton, hs]
    | cons t rest =>
      have hrest := ih (List.cons_ne_nil t rest) fun r hr => h r (List.mem_cons_of_mem s hr)
      rw [String.intercalate_cons_cons, segments_append_slash, hs, hrest]
      rfl

theorem intercalate_segments (path : String) : "/".intercalate (segments path) = path := by
  rw [← String.toList_inj, String.toList_intercalate, segments, List.map_map]
  simp only [Function.comp_def, String.toList_ofList, List.map_id']
  exact Text.intercalate_pieces '/' path.toList

/-- A path is absolute iff an empty segment stands before its first slash. -/
theorem isAbsolute_iff (hp : segments path = first :: segs) :
    isAbsolute path = true ↔ first = "" ∧ segs ≠ [] := by
  unfold segments at hp
  unfold isAbsolute
  cases hc : path.toList with
  | nil =>
    rw [hc] at hp
    obtain ⟨-, rfl⟩ := List.cons.inj hp
    simp
  | cons c cs =>
    obtain ⟨piece, rest, hpieces⟩ := List.exists_cons_of_ne_nil (Text.pieces_ne_nil '/' cs)
    rw [hc, Text.pieces, hpieces] at hp
    by_cases hslash : c = '/'
    · rw [if_pos hslash] at hp
      obtain ⟨rfl, rfl⟩ := List.cons.inj hp
      simp [hslash]
    · rw [if_neg hslash] at hp
      obtain ⟨rfl, rfl⟩ := List.cons.inj hp
      simp [hslash]

/-- After a slash at the end of a path there is one more segment, which is empty. -/
theorem getLast?_segments (h : path.toList.getLast? = some '/') :
    (segments path).getLast? = some "" := by
  obtain ⟨cs, hcs⟩ := List.getLast?_eq_some_iff.mp h
  have hpath : path = String.ofList cs ++ "/" ++ "" := by
    rw [← String.toList_inj, hcs]
    simp
  rw [hpath, segments_append_slash]
  exact List.getLast?_concat

theorem segments_join (directory file : String) (h : directory.toList.getLast? ≠ some '/') :
    segments (join directory file) = segments directory ++ segments file := by
  rw [join, if_neg h, segments_append_slash]

/-! ## Components -/

/-- The component of a first segment. -/
def Component.front (segment : String) : Component :=
  if segment = "" then root else if segment = "." then current else ofSegment segment

/-- Segments lead from their first one by those of the others that are not idle. -/
theorem ofSegments_cons (h : first ≠ "" ∨ segs ≠ []) :
    Component.ofSegments (first :: segs) =
      Component.front first :: (segs.filter (!isIdle ·)).map Component.ofSegment := by
  by_cases hempty : first = ""
  · have hne : segs ≠ [] := h.resolve_left fun hne => hne hempty
    simp [Component.ofSegments, Component.front, hempty, hne]
  · by_cases hdot : first = "." <;> simp [Component.ofSegments, Component.front, hempty, hdot]

theorem filter_idle (h : ∀ s ∈ idles, isIdle s = true) : idles.filter (!isIdle ·) = [] := by
  rw [List.filter_eq_nil_iff]
  intro s hs
  simp [h s hs]

theorem ofSegments_singleton (h : isIdle last = false) :
    Component.ofSegments [last] = [Component.ofSegment last] := by
  have hempty : last ≠ "" := by rintro rfl; cases h
  have hdot : last ≠ "." := by rintro rfl; cases h
  simp [Component.ofSegments, hempty, hdot]

/-- Idle segments at the end make no difference. -/
theorem ofSegments_append_idle (hk : kept ≠ []) (hlast : ∀ s ∈ kept.getLast?, isIdle s = false)
    (h : ∀ s ∈ idles, isIdle s = true) :
    Component.ofSegments (kept ++ idles) = Component.ofSegments kept := by
  obtain ⟨first, rest, rfl⟩ := List.exists_cons_of_ne_nil hk
  have hfirst : first ≠ "" ∨ rest ≠ [] := by
    by_cases hr : rest = []
    · subst hr
      refine .inl fun he => ?_
      have := hlast first rfl
      rw [he] at this
      cases this
    · exact .inr hr
  rw [List.cons_append, ofSegments_cons hfirst, ofSegments_cons (hfirst.imp_right (by simp [·])),
    List.filter_append, filter_idle h, List.append_nil]

/-- One more segment that is not idle is one more component, after any other. -/
theorem ofSegments_concat (hk : kept ≠ []) (hne : kept ≠ [""]) (h : isIdle last = false) :
    Component.ofSegments (kept ++ [last]) =
      Component.ofSegments kept ++ [Component.ofSegment last] := by
  obtain ⟨first, rest, rfl⟩ := List.exists_cons_of_ne_nil hk
  have hfirst : first ≠ "" ∨ rest ≠ [] := by
    by_cases hr : rest = []
    · exact .inl fun he => hne (by rw [he, hr])
    · exact .inr hr
  rw [List.cons_append, ofSegments_cons hfirst, ofSegments_cons (.inr (by simp)), List.filter_append]
  simp [h]

/-- What is passed over from the end is idle. -/
theorem reverse_eq_append (l : List String) :
    ∃ idles, l.reverse = (l.dropWhile isIdle).reverse ++ idles ∧ ∀ s ∈ idles, isIdle s = true := by
  refine ⟨(l.takeWhile isIdle).reverse, ?_, fun s hs => ?_⟩
  · rw [← List.reverse_append, List.takeWhile_append_dropWhile]
  · exact List.all_eq_true.mp List.all_takeWhile s (List.mem_reverse.mp hs)

theorem isIdle_head_dropWhile {l : List String} (h : l.dropWhile isIdle = last :: before) :
    isIdle last = false := by
  have := List.head?_dropWhile_not isIdle l
  rwa [h] at this

/-! ## Splitting -/

/-- Idle segments before a name lead to where the first one does. -/
theorem ofSegments_idle_concat (h : ∀ s ∈ segs, isIdle s = true) (hl : isIdle last = false) :
    Component.ofSegments (first :: (segs ++ [last])) =
      [Component.front first, Component.ofSegment last] := by
  rw [ofSegments_cons (.inr (by simp)), List.filter_append, filter_idle h]
  simp [hl]

/-- A directory of segments of which the last is not idle. -/
theorem join_intercalate (hk : kept ≠ []) (hlast : ∀ s ∈ kept.getLast?, isIdle s = false)
    (hs : ∀ s ∈ kept, '/' ∉ s.toList) (file : String) :
    "/".intercalate kept ≠ "" ∧
      segments (join ("/".intercalate kept) file) = kept ++ segments file := by
  have hseg := segments_intercalate hk hs
  constructor
  · intro he
    rw [he] at hseg
    have hempty : kept.getLast? = some "" := by rw [← hseg]; rfl
    exact absurd (hlast "" hempty) (by decide)
  · rw [segments_join, hseg]
    intro he
    have hempty := getLast?_segments he
    rw [hseg] at hempty
    exact absurd (hlast "" hempty) (by decide)

/-- The root directory or the working one. -/
theorem components_join_shallow (absolute : Bool) (hs : segments last = [last])
    (hl : isIdle last = false) :
    components (join (if absolute then "/" else ".") last) =
      [if absolute then .root else .current, Component.ofSegment last] := by
  have hnone : ∀ s ∈ ([] : List String), isIdle s = true := by simp
  cases absolute with
  | true =>
    have hjoin : join "/" last = "" ++ "/" ++ last := by simp [join]
    rw [if_pos rfl, if_pos rfl, hjoin, components, segments_append_slash, hs]
    exact ofSegments_idle_concat hnone hl
  | false =>
    rw [if_neg (by decide), if_neg (by decide), components, segments_join _ _ (by decide), hs]
    exact ofSegments_idle_concat hnone hl

/-- The directory read off the segments before a name, put together with that name, has their
components. If there are no segments, it is the working directory. -/
theorem components_join_directoryOf (hp : segments path = before.reverse ++ last :: idles)
    (hl : isIdle last = false) :
    directoryOf (isAbsolute path) before ≠ "" ∧
      components (join (directoryOf (isAbsolute path) before) last) =
        if before = [] then [.current, Component.ofSegment last]
        else Component.ofSegments (before.reverse ++ [last]) := by
  have hslash : ∀ s ∈ last :: before, '/' ∉ s.toList := by
    intro s hs
    refine slash_not_mem_segment path ?_
    rw [hp]
    simp only [List.mem_append, List.mem_cons, List.mem_reverse] at hs ⊢
    exact hs.elim (fun he => .inr (.inl he)) .inl
  have hlast : segments last = [last] := segments_of_no_slash (hslash last List.mem_cons_self)
  obtain ⟨trailing, hbefore, hidle⟩ := reverse_eq_append before
  unfold directoryOf
  cases hk : before.dropWhile isIdle with
  | cons name names =>
    rw [hk] at hbefore
    have hname : isIdle name = false := isIdle_head_dropWhile hk
    have hend : ∀ s ∈ (name :: names).reverse.getLast?, isIdle s = false := by
      simpa using hname
    have hkept : ∀ s ∈ (name :: names).reverse, '/' ∉ s.toList := fun s hs =>
      hslash s (List.mem_cons_of_mem _ ((List.dropWhile_suffix _).subset (hk ▸ List.mem_reverse.mp hs)))
    obtain ⟨hne, hjoin⟩ := join_intercalate (by simp) hend hkept last
    refine ⟨hne, ?_⟩
    have hone : ∀ ss : List String, name ∈ ss → ss ≠ [""] := by
      rintro ss hm rfl
      obtain rfl := List.mem_singleton.mp hm
      cases hname
    rw [components, hjoin, hlast, hbefore, if_neg (by rintro rfl; cases hk),
      ofSegments_concat (by simp) (hone _ (by simp)) hl,
      ofSegments_concat (by simp) (hone _ (by simp)) hl, ofSegments_append_idle (by simp) hend hidle]
  | nil =>
    rw [hk, List.reverse_nil, List.nil_append] at hbefore
    refine ⟨by dsimp only; split <;> decide, (components_join_shallow _ hlast hl).trans ?_⟩
    cases hrev : before.reverse with
    | nil =>
      obtain rfl : before = [] := List.reverse_eq_nil_iff.mp hrev
      have hrelative : isAbsolute path = false := by
        have hpath : segments path = last :: idles := hp
        rw [Bool.eq_false_iff, ne_eq, isAbsolute_iff hpath]
        rintro ⟨rfl, -⟩
        cases hl
      simp [hrelative]
    | cons first rest =>
      rw [hrev] at hp hbefore
      rw [← hbefore] at hidle
      have hpath : segments path = first :: (rest ++ last :: idles) := hp
      have habs := isAbsolute_iff hpath
      have hne : before ≠ [] := List.reverse_ne_nil_iff.mp (hrev ▸ List.cons_ne_nil first rest)
      rw [if_neg hne, List.cons_append,
        ofSegments_idle_concat (fun s hs => hidle s (List.mem_cons_of_mem _ hs)) hl]
      -- an idle first segment is empty, before the root's slash, or a dot
      by_cases hempty : first = ""
      · simp [habs.mpr ⟨hempty, by simp⟩, Component.front, hempty]
      · have hdot : first = "." := by simpa [isIdle, hempty] using hidle first List.mem_cons_self
        have hrelative : isAbsolute path = false := by
          rw [Bool.eq_false_iff]
          exact fun h => hempty (habs.mp h).1
        simp [hrelative, Component.front, hdot]

theorem length_ofSegments_concat (hb : before ≠ []) (hl : isIdle last = false) :
    1 < (Component.ofSegments (before.reverse ++ [last])).length := by
  obtain ⟨first, rest, hrev⟩ := List.exists_cons_of_ne_nil (List.reverse_ne_nil_iff.mpr hb)
  rw [hrev, List.cons_append, ofSegments_cons (.inr (by simp)), List.filter_append]
  simp [hl]

/-- The component of a name that is not idle ends a path in which only idle segments follow it. -/
theorem getLast?_components (hp : segments path = before.reverse ++ last :: idles)
    (hl : isIdle last = false) (hi : ∀ s ∈ idles, isIdle s = true) :
    components path = Component.ofSegments (before.reverse ++ [last]) ∧
      (components path).getLast? = some (Component.ofSegment last) := by
  have hcomponents : components path = Component.ofSegments (before.reverse ++ [last]) := by
    rw [components, hp, List.append_cons]
    exact ofSegments_append_idle (by simp) (by simpa using hl) hi
  rw [hcomponents]
  refine ⟨rfl, ?_⟩
  cases before.reverse with
  | nil =>
    rw [List.nil_append, ofSegments_singleton hl]
    rfl
  | cons first rest =>
    rw [List.cons_append, ofSegments_cons (.inr (by simp)), List.filter_append, List.map_append]
    simp only [List.filter_cons, hl, Bool.not_false, if_pos, List.filter_nil, List.map_cons,
      List.map_nil, ← List.cons_append, List.getLast?_concat]

/-- Segments that are all idle lead nowhere, or to the root or the working directory. -/
theorem components_of_idle (h : ∀ s ∈ segments path, isIdle s = true) :
    path = "" ∨ components path = [.root] ∨ components path = [.current] := by
  obtain ⟨first, rest, hp⟩ := List.exists_cons_of_ne_nil (segments_ne_nil path)
  rw [hp] at h
  have hrest := filter_idle fun s hs => h s (List.mem_cons_of_mem first hs)
  by_cases hboth : first = "" ∧ rest = []
  · left
    rw [← intercalate_segments path, hp, hboth.1, hboth.2]
    rfl
  · right
    rw [components, hp, ofSegments_cons (Decidable.not_and_iff_not_or_not.mp hboth), hrest]
    by_cases hempty : first = ""
    · exact .inl (by simp [Component.front, hempty])
    · have hdot : first = "." := by simpa [isIdle, hempty] using h first List.mem_cons_self
      exact .inr (by simp [Component.front, hdot])

/-- **A split path names the same file.** A path cannot be split iff it is empty, or its last component
is the root, the working directory or a parent. Otherwise the file is a single name and the directory
is some path, and put together they have the components of the path, whatever slashes and dots it has
within or at its end; but a path of a single component gains a dot at its front. -/
theorem split_names_same_file (path : String) :
    (splitFile? path = none ↔
      path = "" ∨ ∃ c ∈ [.root, .current, .parent], (components path).getLast? = some c) ∧
    ∀ directory file, splitFile? path = some (directory, file) →
      components file = [.name file] ∧ directory ≠ "" ∧
        (components path).getLast? = some (.name file) ∧
        components (join directory file) =
          if (components path).length = 1 then .current :: components path else components path := by
  obtain ⟨idles, hp, hidles⟩ := reverse_eq_append (segments path).reverse
  rw [List.reverse_reverse] at hp
  unfold splitFile?
  cases hk : (segments path).reverse.dropWhile isIdle with
  | nil =>
    rw [hk, List.reverse_nil, List.nil_append] at hp
    rw [← hp] at hidles
    refine ⟨iff_of_true rfl ?_, nofun⟩
    rcases components_of_idle hidles with he | he | he
    · exact .inl he
    · exact .inr ⟨.root, by simp, by simp [he]⟩
    · exact .inr ⟨.current, by simp, by simp [he]⟩
  | cons last before =>
    rw [hk, List.reverse_cons, List.append_assoc, List.singleton_append] at hp
    have hl := isIdle_head_dropWhile hk
    obtain ⟨hcomponents, hend⟩ := getLast?_components hp hl hidles
    have hne : path ≠ "" := by
      rintro rfl
      cases hend
    by_cases hup : last = ".."
    · refine ⟨iff_of_true (if_pos hup) (.inr ⟨.parent, by simp, ?_⟩), fun d f h => ?_⟩
      · rw [hend, hup]
        rfl
      · simp [hup] at h
    · have hname : Component.ofSegment last = .name last := if_neg hup
      rw [hname] at hend
      refine ⟨iff_of_false (by simp [hup]) ?_, fun d f h => ?_⟩
      · rw [hend]
        simp [hne]
      · have hsplit : (directoryOf (isAbsolute path) before, last) = (d, f) := by
          simpa [hup] using h
        obtain ⟨rfl, rfl⟩ := Prod.mk.inj hsplit
        obtain ⟨hdirectory, hjoin⟩ := components_join_directoryOf hp hl
        have hslash : '/' ∉ last.toList := slash_not_mem_segment path (hp ▸ by simp)
        refine ⟨?_, hdirectory, hend, ?_⟩
        · rw [components, segments_of_no_slash hslash, ofSegments_singleton hl, hname]
        · rw [hjoin, hcomponents]
          by_cases hb : before = []
          · rw [if_pos hb, hb, List.reverse_nil, List.nil_append, ofSegments_singleton hl]
            rfl
          · have hlen := length_ofSegments_concat hb hl
            rw [if_neg hb, if_neg (by omega)]

/-- Slashes and dots within the path and at its end. -/
theorem split_names_same_file_of_dots :
    let path := "./logs//.././gc.log/./"
    splitFile? path = some ("./logs//..", "gc.log") ∧
      components (join "./logs//.." "gc.log") = components path ∧
      components path = [.current, .name "logs", .parent, .name "gc.log"] := by
  intro path
  have hsplit : splitFile? path = some ("./logs//..", "gc.log") := by decide +kernel
  have hcomponents : components path = [.current, .name "logs", .parent, .name "gc.log"] := by
    decide +kernel
  obtain ⟨-, -, -, hjoin⟩ := (split_names_same_file path).2 _ _ hsplit
  exact ⟨hsplit, hjoin.trans (by rw [hcomponents]; rfl), hcomponents⟩

end SharedHeap.Path
