import PercentTemplate.Text.Terminal

/-!
# Texts in front of control sequences

Text without the escape character stays where it is when the text behind it is stripped
(`Text.stripControls_append`).
-/

namespace PercentTemplate.Text

/-- What has been kept so far does not change what is kept later. -/
theorem stripControlsAux_append (done before cs : List Char) :
    stripControlsAux (done ++ before) cs = before.reverse ++ stripControlsAux done cs := by
  fun_induction stripControlsAux done cs with
  | case1 done => simp [stripControlsAux]
  | case2 done rest after hafter ih =>
    rw [stripControlsAux, if_pos rfl]
    split
    · rename_i h
      rw [hafter] at h
      cases h
      exact ih
    · rename_i h
      rw [hafter] at h
      cases h
  | case3 done rest hafter ih =>
    rw [stripControlsAux, if_pos rfl]
    split
    · rename_i h
      rw [hafter] at h
      cases h
    · exact ih
  | case4 done c rest hc ih =>
    rw [stripControlsAux, if_neg hc]
    exact ih

theorem stripControlsAux_of_notMem {cs : List Char} (h : escapeChar ∉ cs) (done rest : List Char) :
    stripControlsAux done (cs ++ rest) = stripControlsAux (cs.reverse ++ done) rest := by
  induction cs generalizing done with
  | nil => rfl
  | cons c cs ih =>
    obtain ⟨hc, hcs⟩ := not_or.1 (mt List.mem_cons.2 h)
    rw [List.cons_append, stripControlsAux, if_neg (Ne.symm hc), ih hcs]
    simp

/-- A text without the escape character is kept in front of any other. -/
theorem stripControls_append {s : String} (h : escapeChar ∉ s.toList) (t : String) :
    stripControls (s ++ t) = s ++ stripControls t := by
  have hkeep := stripControlsAux_append [] s.toList.reverse t.toList
  rw [List.nil_append, List.reverse_reverse] at hkeep
  rw [stripControls, String.toList_append, stripControlsAux_of_notMem h, List.append_nil, hkeep,
    String.ofList_append, String.ofList_toList, stripControls]

end PercentTemplate.Text
