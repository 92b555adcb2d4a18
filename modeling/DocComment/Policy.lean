import DocComment.Text.Basic

/-! The choices that a project makes about its tags. -/

namespace DocComment

structure Policy where
  methodTypeParameters : Bool := true
  qualifiedExceptionNames : Bool := false
  stubPlaceholder : Text := []
  deriving DecidableEq, Inhabited

end DocComment
