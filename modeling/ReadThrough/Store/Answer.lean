import ReadThrough.Reply
import ReadThrough.Store.Response

namespace ReadThrough.Store.Response

def errorReply? : Response → Option Reply
  | .error message _ => some (Reply.error message)
  | _ => none

def reply (draw : Nat) (response : Response) : Reply :=
  match response with
  | .found .. =>
      match response.outcome? draw with
      | some (.found value _) => Reply.bulk value
      | _ => Reply.nil
  | .putAck _ => Reply.ok
  | .deleteAck => Reply.integer 1
  | .set members _ => Reply.members members
  | .counter value => Reply.integer value
  | .updateAck => Reply.ok
  | .error message _ => Reply.error message

end ReadThrough.Store.Response
