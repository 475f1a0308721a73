import Dashboard.Text

/-!
# Words of the configuration language

The keywords of statements and items and the three tokens of punctuation. The names of categories and
options stand with the categories.
-/

namespace Dashboard.Keyword

def semicolon : Text := ";"
def openBrace : Text := "\x7b"
def closeBrace : Text := "\x7d"
def servers : Text := "servers"
def waittime : Text := "waittime"
def layout : Text := "layout"
def header : Text := "header"
def errlog : Text := "errlog"
def host : Text := "host"

end Dashboard.Keyword
