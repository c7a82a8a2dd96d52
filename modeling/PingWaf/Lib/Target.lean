import PingWaf.Lib.Text

/-!
# Request targets

The path and the query of a target in origin form. The path ends at the first `?` or `#`, the query
at the first `#`; what comes behind a `#` is dropped. A path and a query without these characters
are read back from the text that joins them (`readTarget_joinTarget`).
-/

namespace Text

def endsPath (ch : Char) : Bool := ch == '?' || ch == '#'

def readTarget (target : String) : String × Option String :=
  (String.ofList (target.toList.takeWhile fun ch => !endsPath ch),
    match target.toList.dropWhile fun ch => !endsPath ch with
    | '?' :: rest => some (String.ofList (rest.takeWhile fun ch => ch != '#'))
    | _ => none)

def joinTarget (path query : String) : String := if query = "" then path else path ++ "?" ++ query

def isPathText (path : String) : Bool := hasPrefix path "/" && path.toList.all fun ch => !endsPath ch

def isQueryText (query : String) : Bool := query.toList.all fun ch => ch != '#'

theorem readTarget_path {path : String} (h : isPathText path = true) :
    readTarget path = (path, none) := by
  simp only [isPathText, Bool.and_eq_true, List.all_eq_true] at h
  simp only [readTarget, List.takeWhile_eq_self_iff.mpr h.2, List.dropWhile_eq_nil_iff.mpr h.2,
    String.ofList_toList]

theorem readTarget_append {path query : String} (hpath : isPathText path = true)
    (hquery : isQueryText query = true) :
    readTarget (path ++ "?" ++ query) = (path, some query) := by
  simp only [isPathText, Bool.and_eq_true, List.all_eq_true] at hpath
  simp only [isQueryText, List.all_eq_true] at hquery
  have hlist : (path ++ "?" ++ query).toList = path.toList ++ '?' :: query.toList := by
    rw [String.toList_append, String.toList_append, List.append_assoc]
    rfl
  have htake : (path.toList ++ '?' :: query.toList).takeWhile (fun ch => !endsPath ch) =
      path.toList := by
    rw [List.takeWhile_append_of_pos hpath.2, List.takeWhile_cons_of_neg (by decide),
      List.append_nil]
  have hdrop : (path.toList ++ '?' :: query.toList).dropWhile (fun ch => !endsPath ch) =
      '?' :: query.toList := by
    rw [List.dropWhile_append_of_pos hpath.2, List.dropWhile_cons_of_neg (by decide)]
  simp only [readTarget, hlist, htake, hdrop, List.takeWhile_eq_self_iff.mpr hquery,
    String.ofList_toList]

theorem readTarget_joinTarget {path query : String} (hpath : isPathText path = true)
    (hquery : isQueryText query = true) :
    (readTarget (joinTarget path query)).1 = path ∧
      (readTarget (joinTarget path query)).2.getD "" = query := by
  unfold joinTarget
  split
  · next hempty =>
    rw [readTarget_path hpath]
    exact ⟨rfl, hempty.symm⟩
  · rw [readTarget_append hpath hquery]
    exact ⟨rfl, rfl⟩

theorem hasPrefix_joinTarget {path : String} (h : isPathText path = true) (query : String) :
    hasPrefix (joinTarget path query) "/" = true := by
  simp only [isPathText, Bool.and_eq_true] at h
  unfold joinTarget
  split
  · exact h.1
  · exact hasPrefix_append (hasPrefix_append h.1 "?") query

end Text
