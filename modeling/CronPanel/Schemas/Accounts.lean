import CronPanel.Core.Permissions
import CronPanel.Schemas.Bodies

namespace CronPanel.Schemas.Accounts

open Library.Strings Core.Permissions Bodies

def roleOf? (name : Text) : Option Role :=
  [Role.admin, .operator, .viewer].find? fun role ↦ role.name = name

namespace User

def isUsernameChar (c : Char) : Bool := c.isAlphanum || c = '_' || c = '.' || c = '-'

def username (value : Text) : Except FieldError Text := do
  let value ← checkLength "username".toList 3 64 value
  if value.all isUsernameChar then .ok value
  else .error (.value "username".toList "String should match pattern '^[A-Za-z0-9_.\\-]+$'".toList)

def email (value : Text) : Except FieldError Text := checkLength "email".toList 5 255 value

def password (value : Text) : Except FieldError Text := checkLength "password".toList 1 128 value

def role (value : Text) : Except FieldError Role := do
  let value ← checkLength "role".toList 0 50 value
  match roleOf? value with
  | some role => .ok role
  | none => .error (.value "role".toList ("Rol '".toList ++ value ++ "' no es válido.".toList))

end User

/-- A body as it is sent, with the name of a role, or as its schema returns it. -/
structure UserCreate (ρ : Type) where
  username : Text
  email : Text
  password : Text
  role : ρ
  deriving DecidableEq

def UserCreate.validate (body : UserCreate Text) : Except (List FieldError) (UserCreate Role) :=
  let username := User.username body.username
  let email := User.email body.email
  let password := User.password body.password
  let role := User.role body.role
  match username, email, password, role with
  | .ok username, .ok email, .ok password, .ok role => .ok { username, email, password, role }
  | _, _, _, _ => .error (errorOf username ++ errorOf email ++ errorOf password ++ errorOf role)

structure UserUpdate (ρ : Type) where
  email : Option Text := none
  password : Option Text := none
  role : Option ρ := none
  isActive : Option Bool := none
  deriving DecidableEq

def optionalRole : Option Text → Except FieldError (Option Role)
  | none => .ok none
  | some value => some <$> User.role value

def UserUpdate.validate (body : UserUpdate Text) : Except (List FieldError) (UserUpdate Role) :=
  let email := optional User.email body.email
  let password := optional User.password body.password
  let role := optionalRole body.role
  match email, password, role with
  | .ok email, .ok password, .ok role => .ok { email, password, role, isActive := body.isActive }
  | _, _, _ => .error (errorOf email ++ errorOf password ++ errorOf role)

structure ChangePasswordRequest where
  currentPassword : Text
  newPassword : Text
  deriving DecidableEq

def ChangePasswordRequest.validate (body : ChangePasswordRequest) :
    Except (List FieldError) ChangePasswordRequest :=
  let currentPassword := checkLength "current_password".toList 1 256 body.currentPassword
  let newPassword := checkLength "new_password".toList 1 128 body.newPassword
  match currentPassword, newPassword with
  | .ok currentPassword, .ok newPassword => .ok { currentPassword, newPassword }
  | _, _ => .error (errorOf currentPassword ++ errorOf newPassword)

end CronPanel.Schemas.Accounts
