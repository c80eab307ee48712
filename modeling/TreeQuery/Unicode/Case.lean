import TreeQuery.Unicode.Runs

/-!
Characters that are not the same after a change of case.
-/

namespace TreeQuery.Unicode

def changesWhenLowercased : CodeRanges := members [
  "65-26+101-23+1-7+33-1+1-1+1-1+1-1+1-1+1-1+1-1+1-1+1-1+1-1+1-1+1-1+1-1+1-1+1-1+1-1+1-1+1-1+1-1+1-1+",
  "1-1+1-1+1-1+1-1+1-1+1-1+1-1+1-1+2-1+1-1+1-1+1-1+1-1+1-1+1-1+1-1+2-1+1-1+1-1+1-1+1-1+1-1+1-1+1-1+1-",
  "1+1-1+1-1+1-1+1-1+1-1+1-1+1-1+1-1+1-1+1-1+1-1+1-1+1-1+1-1+1-2+1-1+1-1+3-2+1-1+1-2+1-3+2-4+1-2+1-3+",
  "3-2+1-2+1-1+1-1+1-2+1-1+2-1+1-2+1-3+1-1+1-2+3-1+7-2+1-2+1-2+1-1+1-1+1-1+1-1+1-1+1-1+1-1+1-1+2-1+1-",
  "1+1-1+1-1+1-1+1-1+1-1+1-1+1-1+2-2+1-1+1-3+1-1+1-1+1-1+1-1+1-1+1-1+1-1+1-1+1-1+1-1+1-1+1-1+1-1+1-1+",
  "1-1+1-1+1-1+1-1+1-1+1-1+1-1+1-1+1-1+1-1+1-1+1-1+1-1+1-1+1-1+7-2+1-2+2-1+1-4+1-1+1-1+1-1+1-1+289-1+",
  "1-1+3-1+8-1+6-1+1-3+1-1+1-2+1-17+1-9+35-1+8-1+1-1+1-1+1-1+1-1+1-1+1-1+1-1+1-1+1-1+1-1+1-1+5-1+2-1+",
  "1-2+2-51+48-1+1-1+1-1+1-1+1-1+1-1+1-1+1-1+1-1+1-1+1-1+1-1+1-1+1-1+1-1+1-1+1-1+9-1+1-1+1-1+1-1+1-1+",
  "1-1+1-1+1-1+1-1+1-1+1-1+1-1+1-1+1-1+1-1+1-1+1-1+1-1+1-1+1-1+1-1+1-1+1-1+1-1+1-1+1-1+1-1+1-2+1-1+1-",
  "1+1-1+1-1+1-1+1-1+2-1+1-1+1-1+1-1+1-1+1-1+1-1+1-1+1-1+1-1+1-1+1-1+1-1+1-1+1-1+1-1+1-1+1-1+1-1+1-1+",
  "1-1+1-1+1-1+1-1+1-1+1-1+1-1+1-1+1-1+1-1+1-1+1-1+1-1+1-1+1-1+1-1+1-1+1-1+1-1+1-1+1-1+1-1+1-1+1-1+1-",
  "1+1-1+1-1+1-1+2-38+2889-38+1-1+5-1+722-86+2195-1+6-43+2-3+320-1+1-1+1-1+1-1+1-1+1-1+1-1+1-1+1-1+1-",
  "1+1-1+1-1+1-1+1-1+1-1+1-1+1-1+1-1+1-1+1-1+1-1+1-1+1-1+1-1+1-1+1-1+1-1+1-1+1-1+1-1+1-1+1-1+1-1+1-1+",
  "1-1+1-1+1-1+1-1+1-1+1-1+1-1+1-1+1-1+1-1+1-1+1-1+1-1+1-1+1-1+1-1+1-1+1-1+1-1+1-1+1-1+1-1+1-1+1-1+1-",
  "1+1-1+1-1+1-1+1-1+1-1+1-1+1-1+1-1+1-1+1-1+1-1+1-1+1-1+1-1+1-1+1-1+9-1+1-1+1-1+1-1+1-1+1-1+1-1+1-1+",
  "1-1+1-1+1-1+1-1+1-1+1-1+1-1+1-1+1-1+1-1+1-1+1-1+1-1+1-1+1-1+1-1+1-1+1-1+1-1+1-1+1-1+1-1+1-1+1-1+1-",
  "1+1-1+1-1+1-1+1-1+1-1+1-1+1-1+1-1+1-1+1-1+1-1+1-1+1-1+1-1+1-1+1-1+9-8+8-6+10-8+8-8+8-6+11-1+1-1+1-",
  "1+1-1+8-8+24-8+8-8+8-8+8-5+11-5+11-4+12-5+11-5+297-1+3-2+6-1+45-16+19-1+818-26+1840-48+48-1+1-3+2-",
  "1+1-1+1-1+1-4+1-1+2-1+8-3+1-1+1-1+1-1+1-1+1-1+1-1+1-1+1-1+1-1+1-1+1-1+1-1+1-1+1-1+1-1+1-1+1-1+1-1+",
  "1-1+1-1+1-1+1-1+1-1+1-1+1-1+1-1+1-1+1-1+1-1+1-1+1-1+1-1+1-1+1-1+1-1+1-1+1-1+1-1+1-1+1-1+1-1+1-1+1-",
  "1+1-1+1-1+1-1+1-1+1-1+1-1+8-1+1-1+4-1+31053-1+1-1+1-1+1-1+1-1+1-1+1-1+1-1+1-1+1-1+1-1+1-1+1-1+1-1+",
  "1-1+1-1+1-1+1-1+1-1+1-1+1-1+1-1+1-1+19-1+1-1+1-1+1-1+1-1+1-1+1-1+1-1+1-1+1-1+1-1+1-1+1-1+1-1+135-",
  "1+1-1+1-1+1-1+1-1+1-1+1-1+3-1+1-1+1-1+1-1+1-1+1-1+1-1+1-1+1-1+1-1+1-1+1-1+1-1+1-1+1-1+1-1+1-1+1-1+",
  "1-1+1-1+1-1+1-1+1-1+1-1+1-1+1-1+1-1+1-1+1-1+1-1+1-1+10-1+1-1+1-2+1-1+1-1+1-1+1-1+4-1+1-1+2-1+1-1+",
  "3-1+1-1+1-1+1-1+1-1+1-1+1-1+1-1+1-1+1-1+1-5+1-5+1-1+1-1+1-1+1-1+1-1+1-1+1-1+1-4+1-1+1-2+3-1+5-1+1-",
  "1+1-1+1-1+24-1+22315-26+1221-40+136-36+156-11+1-15+1-7+1-2+1770-51+157-22+2874-32+21888-32+31392-",
  "34+"]

def changesWhenUppercased : CodeRanges := members [
  "97-26+58-1+41-24+1-8+1-1+1-1+1-1+1-1+1-1+1-1+1-1+1-1+1-1+1-1+1-1+1-1+1-1+1-1+1-1+1-1+1-1+1-1+1-1+",
  "1-1+1-1+1-1+1-1+1-1+1-1+1-1+1-1+1-1+2-1+1-1+1-1+1-1+1-1+1-1+1-1+1-2+1-1+1-1+1-1+1-1+1-1+1-1+1-1+1-",
  "1+1-1+1-1+1-1+1-1+1-1+1-1+1-1+1-1+1-1+1-1+1-1+1-1+1-1+1-1+1-1+2-1+1-1+1-3+2-1+1-1+2-1+3-1+5-1+2-1+",
  "3-3+2-1+2-1+1-1+1-1+2-1+4-1+2-1+3-1+1-1+2-1+3-1+1-1+5-2+1-2+1-2+1-1+1-1+1-1+1-1+1-1+1-1+1-1+1-2+1-",
  "1+1-1+1-1+1-1+1-1+1-1+1-1+1-1+1-2+1-2+1-1+3-1+1-1+1-1+1-1+1-1+1-1+1-1+1-1+1-1+1-1+1-1+1-1+1-1+1-1+",
  "1-1+1-1+1-1+1-1+1-1+1-1+3-1+1-1+1-1+1-1+1-1+1-1+1-1+1-1+1-1+8-1+2-2+1-1+4-1+1-1+1-1+1-1+1-6+1-2+1-",
  "1+1-2+3-2+1-4+1-5+2-1+1-2+2-1+7-1+2-1+1-2+3-6+5-1+10-2+166-1+43-1+1-1+3-1+3-3+18-1+27-35+1-2+3-3+",
  "1-1+1-1+1-1+1-1+1-1+1-1+1-1+1-1+1-1+1-1+1-1+1-5+1-1+2-1+2-1+52-48+1-1+1-1+1-1+1-1+1-1+1-1+1-1+1-1+",
  "1-1+1-1+1-1+1-1+1-1+1-1+1-1+1-1+1-1+9-1+1-1+1-1+1-1+1-1+1-1+1-1+1-1+1-1+1-1+1-1+1-1+1-1+1-1+1-1+1-",
  "1+1-1+1-1+1-1+1-1+1-1+1-1+1-1+1-1+1-1+1-1+1-1+2-1+1-1+1-1+1-1+1-1+1-1+1-2+1-1+1-1+1-1+1-1+1-1+1-1+",
  "1-1+1-1+1-1+1-1+1-1+1-1+1-1+1-1+1-1+1-1+1-1+1-1+1-1+1-1+1-1+1-1+1-1+1-1+1-1+1-1+1-1+1-1+1-1+1-1+1-",
  "1+1-1+1-1+1-1+1-1+1-1+1-1+1-1+1-1+1-1+1-1+1-1+1-1+1-1+1-1+1-1+1-1+1-1+49-39+2888-43+2-3+760-6+",
  "2178-9+1-1+238-1+3-1+16-1+114-1+1-1+1-1+1-1+1-1+1-1+1-1+1-1+1-1+1-1+1-1+1-1+1-1+1-1+1-1+1-1+1-1+1-",
  "1+1-1+1-1+1-1+1-1+1-1+1-1+1-1+1-1+1-1+1-1+1-1+1-1+1-1+1-1+1-1+1-1+1-1+1-1+1-1+1-1+1-1+1-1+1-1+1-1+",
  "1-1+1-1+1-1+1-1+1-1+1-1+1-1+1-1+1-1+1-1+1-1+1-1+1-1+1-1+1-1+1-1+1-1+1-1+1-1+1-1+1-1+1-1+1-1+1-1+1-",
  "1+1-1+1-1+1-1+1-1+1-1+1-1+1-1+1-7+5-1+1-1+1-1+1-1+1-1+1-1+1-1+1-1+1-1+1-1+1-1+1-1+1-1+1-1+1-1+1-1+",
  "1-1+1-1+1-1+1-1+1-1+1-1+1-1+1-1+1-1+1-1+1-1+1-1+1-1+1-1+1-1+1-1+1-1+1-1+1-1+1-1+1-1+1-1+1-1+1-1+1-",
  "1+1-1+1-1+1-1+1-1+1-1+1-1+1-9+8-6+10-8+8-8+8-6+10-8+8-8+8-14+2-53+1-2+4-1+1-1+3-3+1-2+4-1+3-4+2-2+",
  "8-8+10-3+1-2+4-1+337-1+33-16+4-1+843-26+1862-48+1-1+3-2+1-1+1-1+1-1+6-1+2-1+10-1+1-1+1-1+1-1+1-1+",
  "1-1+1-1+1-1+1-1+1-1+1-1+1-1+1-1+1-1+1-1+1-1+1-1+1-1+1-1+1-1+1-1+1-1+1-1+1-1+1-1+1-1+1-1+1-1+1-1+1-",
  "1+1-1+1-1+1-1+1-1+1-1+1-1+1-1+1-1+1-1+1-1+1-1+1-1+1-1+1-1+1-1+1-1+1-1+1-1+1-1+1-1+8-1+1-1+4-1+12-",
  "38+1-1+5-1+30995-1+1-1+1-1+1-1+1-1+1-1+1-1+1-1+1-1+1-1+1-1+1-1+1-1+1-1+1-1+1-1+1-1+1-1+1-1+1-1+1-",
  "1+1-1+1-1+19-1+1-1+1-1+1-1+1-1+1-1+1-1+1-1+1-1+1-1+1-1+1-1+1-1+1-1+135-1+1-1+1-1+1-1+1-1+1-1+1-1+",
  "3-1+1-1+1-1+1-1+1-1+1-1+1-1+1-1+1-1+1-1+1-1+1-1+1-1+1-1+1-1+1-1+1-1+1-1+1-1+1-1+1-1+1-1+1-1+1-1+1-",
  "1+1-1+1-1+1-1+1-1+1-1+1-1+10-1+1-1+2-1+1-1+1-1+1-1+1-1+4-1+4-1+1-2+2-1+1-1+1-1+1-1+1-1+1-1+1-1+1-",
  "1+1-1+1-1+11-1+1-1+1-1+1-1+1-1+1-1+1-1+1-1+4-1+1-1+2-1+3-1+5-1+1-1+1-1+26-1+860-1+28-80+20288-7+",
  "12-5+1065-26+1229-40+136-36+155-11+1-15+1-7+1-2+1795-51+125-22+2874-32+21888-32+31394-34+"]

def changesWhenTitlecased : CodeRanges := members [
  "97-26+58-1+41-24+1-8+1-1+1-1+1-1+1-1+1-1+1-1+1-1+1-1+1-1+1-1+1-1+1-1+1-1+1-1+1-1+1-1+1-1+1-1+1-1+",
  "1-1+1-1+1-1+1-1+1-1+1-1+1-1+1-1+1-1+2-1+1-1+1-1+1-1+1-1+1-1+1-1+1-2+1-1+1-1+1-1+1-1+1-1+1-1+1-1+1-",
  "1+1-1+1-1+1-1+1-1+1-1+1-1+1-1+1-1+1-1+1-1+1-1+1-1+1-1+1-1+1-1+2-1+1-1+1-3+2-1+1-1+2-1+3-1+5-1+2-1+",
  "3-3+2-1+2-1+1-1+1-1+2-1+4-1+2-1+3-1+1-1+2-1+3-1+1-1+4-1+1-2+1-2+1-1+1-1+1-1+1-1+1-1+1-1+1-1+1-1+1-",
  "2+1-1+1-1+1-1+1-1+1-1+1-1+1-1+1-1+1-3+1-1+1-1+3-1+1-1+1-1+1-1+1-1+1-1+1-1+1-1+1-1+1-1+1-1+1-1+1-1+",
  "1-1+1-1+1-1+1-1+1-1+1-1+1-1+3-1+1-1+1-1+1-1+1-1+1-1+1-1+1-1+1-1+8-1+2-2+1-1+4-1+1-1+1-1+1-1+1-6+1-",
  "2+1-1+1-2+3-2+1-4+1-5+2-1+1-2+2-1+7-1+2-1+1-2+3-6+5-1+10-2+166-1+43-1+1-1+3-1+3-3+18-1+27-35+1-2+",
  "3-3+1-1+1-1+1-1+1-1+1-1+1-1+1-1+1-1+1-1+1-1+1-1+1-5+1-1+2-1+2-1+52-48+1-1+1-1+1-1+1-1+1-1+1-1+1-1+",
  "1-1+1-1+1-1+1-1+1-1+1-1+1-1+1-1+1-1+1-1+9-1+1-1+1-1+1-1+1-1+1-1+1-1+1-1+1-1+1-1+1-1+1-1+1-1+1-1+1-",
  "1+1-1+1-1+1-1+1-1+1-1+1-1+1-1+1-1+1-1+1-1+1-1+1-1+2-1+1-1+1-1+1-1+1-1+1-1+1-2+1-1+1-1+1-1+1-1+1-1+",
  "1-1+1-1+1-1+1-1+1-1+1-1+1-1+1-1+1-1+1-1+1-1+1-1+1-1+1-1+1-1+1-1+1-1+1-1+1-1+1-1+1-1+1-1+1-1+1-1+1-",
  "1+1-1+1-1+1-1+1-1+1-1+1-1+1-1+1-1+1-1+1-1+1-1+1-1+1-1+1-1+1-1+1-1+1-1+1-1+49-39+3696-6+2178-9+1-1+",
  "238-1+3-1+16-1+114-1+1-1+1-1+1-1+1-1+1-1+1-1+1-1+1-1+1-1+1-1+1-1+1-1+1-1+1-1+1-1+1-1+1-1+1-1+1-1+",
  "1-1+1-1+1-1+1-1+1-1+1-1+1-1+1-1+1-1+1-1+1-1+1-1+1-1+1-1+1-1+1-1+1-1+1-1+1-1+1-1+1-1+1-1+1-1+1-1+1-",
  "1+1-1+1-1+1-1+1-1+1-1+1-1+1-1+1-1+1-1+1-1+1-1+1-1+1-1+1-1+1-1+1-1+1-1+1-1+1-1+1-1+1-1+1-1+1-1+1-1+",
  "1-1+1-1+1-1+1-1+1-1+1-7+5-1+1-1+1-1+1-1+1-1+1-1+1-1+1-1+1-1+1-1+1-1+1-1+1-1+1-1+1-1+1-1+1-1+1-1+1-",
  "1+1-1+1-1+1-1+1-1+1-1+1-1+1-1+1-1+1-1+1-1+1-1+1-1+1-1+1-1+1-1+1-1+1-1+1-1+1-1+1-1+1-1+1-1+1-1+1-1+",
  "1-1+1-1+1-1+1-1+1-9+8-6+10-8+8-8+8-6+10-8+8-8+8-14+2-8+8-8+8-8+8-5+1-2+6-1+3-3+1-2+8-4+2-2+8-8+10-",
  "3+1-2+342-1+33-16+4-1+843-26+1862-48+1-1+3-2+1-1+1-1+1-1+6-1+2-1+10-1+1-1+1-1+1-1+1-1+1-1+1-1+1-1+",
  "1-1+1-1+1-1+1-1+1-1+1-1+1-1+1-1+1-1+1-1+1-1+1-1+1-1+1-1+1-1+1-1+1-1+1-1+1-1+1-1+1-1+1-1+1-1+1-1+1-",
  "1+1-1+1-1+1-1+1-1+1-1+1-1+1-1+1-1+1-1+1-1+1-1+1-1+1-1+1-1+1-1+1-1+1-1+8-1+1-1+4-1+12-38+1-1+5-1+",
  "30995-1+1-1+1-1+1-1+1-1+1-1+1-1+1-1+1-1+1-1+1-1+1-1+1-1+1-1+1-1+1-1+1-1+1-1+1-1+1-1+1-1+1-1+1-1+",
  "19-1+1-1+1-1+1-1+1-1+1-1+1-1+1-1+1-1+1-1+1-1+1-1+1-1+1-1+135-1+1-1+1-1+1-1+1-1+1-1+1-1+3-1+1-1+1-",
  "1+1-1+1-1+1-1+1-1+1-1+1-1+1-1+1-1+1-1+1-1+1-1+1-1+1-1+1-1+1-1+1-1+1-1+1-1+1-1+1-1+1-1+1-1+1-1+1-1+",
  "1-1+1-1+1-1+1-1+10-1+1-1+2-1+1-1+1-1+1-1+1-1+4-1+4-1+1-2+2-1+1-1+1-1+1-1+1-1+1-1+1-1+1-1+1-1+1-1+",
  "11-1+1-1+1-1+1-1+1-1+1-1+1-1+1-1+4-1+1-1+2-1+3-1+5-1+1-1+1-1+26-1+860-1+28-80+20288-7+12-5+1065-",
  "26+1229-40+136-36+155-11+1-15+1-7+1-2+1795-51+125-22+2874-32+21888-32+31394-34+"]

def changesWhenCasefolded : CodeRanges := members [
  "65-26+90-1+10-23+1-8+32-1+1-1+1-1+1-1+1-1+1-1+1-1+1-1+1-1+1-1+1-1+1-1+1-1+1-1+1-1+1-1+1-1+1-1+1-1+",
  "1-1+1-1+1-1+1-1+1-1+1-1+1-1+1-1+1-1+2-1+1-1+1-1+1-1+1-1+1-1+1-1+1-1+1-2+1-1+1-1+1-1+1-1+1-1+1-1+1-",
  "1+1-1+1-1+1-1+1-1+1-1+1-1+1-1+1-1+1-1+1-1+1-1+1-1+1-1+1-1+1-1+1-2+1-1+1-1+1-1+1-2+1-1+1-2+1-3+2-4+",
  "1-2+1-3+3-2+1-2+1-1+1-1+1-2+1-1+2-1+1-2+1-3+1-1+1-2+3-1+7-2+1-2+1-2+1-1+1-1+1-1+1-1+1-1+1-1+1-1+1-",
  "1+2-1+1-1+1-1+1-1+1-1+1-1+1-1+1-1+1-1+2-2+1-1+1-3+1-1+1-1+1-1+1-1+1-1+1-1+1-1+1-1+1-1+1-1+1-1+1-1+",
  "1-1+1-1+1-1+1-1+1-1+1-1+1-1+1-1+1-1+1-1+1-1+1-1+1-1+1-1+1-1+1-1+1-1+7-2+1-2+2-1+1-4+1-1+1-1+1-1+1-",
  "1+246-1+42-1+1-1+3-1+8-1+6-1+1-3+1-1+1-2+1-17+1-9+22-1+12-3+3-2+1-1+1-1+1-1+1-1+1-1+1-1+1-1+1-1+1-",
  "1+1-1+1-1+1-1+1-2+2-2+1-1+1-2+2-51+48-1+1-1+1-1+1-1+1-1+1-1+1-1+1-1+1-1+1-1+1-1+1-1+1-1+1-1+1-1+1-",
  "1+1-1+9-1+1-1+1-1+1-1+1-1+1-1+1-1+1-1+1-1+1-1+1-1+1-1+1-1+1-1+1-1+1-1+1-1+1-1+1-1+1-1+1-1+1-1+1-1+",
  "1-1+1-1+1-1+1-1+1-2+1-1+1-1+1-1+1-1+1-1+1-1+2-1+1-1+1-1+1-1+1-1+1-1+1-1+1-1+1-1+1-1+1-1+1-1+1-1+1-",
  "1+1-1+1-1+1-1+1-1+1-1+1-1+1-1+1-1+1-1+1-1+1-1+1-1+1-1+1-1+1-1+1-1+1-1+1-1+1-1+1-1+1-1+1-1+1-1+1-1+",
  "1-1+1-1+1-1+1-1+1-1+1-1+1-1+1-1+1-1+1-1+2-38+48-1+2840-38+1-1+5-1+810-6+2178-10+6-43+2-3+320-1+1-",
  "1+1-1+1-1+1-1+1-1+1-1+1-1+1-1+1-1+1-1+1-1+1-1+1-1+1-1+1-1+1-1+1-1+1-1+1-1+1-1+1-1+1-1+1-1+1-1+1-1+",
  "1-1+1-1+1-1+1-1+1-1+1-1+1-1+1-1+1-1+1-1+1-1+1-1+1-1+1-1+1-1+1-1+1-1+1-1+1-1+1-1+1-1+1-1+1-1+1-1+1-",
  "1+1-1+1-1+1-1+1-1+1-1+1-1+1-1+1-1+1-1+1-1+1-1+1-1+1-1+1-1+1-1+1-1+1-1+1-1+1-1+1-1+1-1+1-1+1-1+1-1+",
  "5-2+2-1+1-1+1-1+1-1+1-1+1-1+1-1+1-1+1-1+1-1+1-1+1-1+1-1+1-1+1-1+1-1+1-1+1-1+1-1+1-1+1-1+1-1+1-1+1-",
  "1+1-1+1-1+1-1+1-1+1-1+1-1+1-1+1-1+1-1+1-1+1-1+1-1+1-1+1-1+1-1+1-1+1-1+1-1+1-1+1-1+1-1+1-1+1-1+1-1+",
  "1-1+9-8+8-6+10-8+8-8+8-6+11-1+1-1+1-1+1-1+8-8+16-48+2-3+2-6+5-3+2-6+11-4+12-5+5-3+2-6+297-1+3-2+6-",
  "1+45-16+19-1+818-26+1840-48+48-1+1-3+2-1+1-1+1-1+1-4+1-1+2-1+8-3+1-1+1-1+1-1+1-1+1-1+1-1+1-1+1-1+",
  "1-1+1-1+1-1+1-1+1-1+1-1+1-1+1-1+1-1+1-1+1-1+1-1+1-1+1-1+1-1+1-1+1-1+1-1+1-1+1-1+1-1+1-1+1-1+1-1+1-",
  "1+1-1+1-1+1-1+1-1+1-1+1-1+1-1+1-1+1-1+1-1+1-1+1-1+1-1+1-1+1-1+1-1+8-1+1-1+4-1+31053-1+1-1+1-1+1-1+",
  "1-1+1-1+1-1+1-1+1-1+1-1+1-1+1-1+1-1+1-1+1-1+1-1+1-1+1-1+1-1+1-1+1-1+1-1+1-1+19-1+1-1+1-1+1-1+1-1+",
  "1-1+1-1+1-1+1-1+1-1+1-1+1-1+1-1+1-1+135-1+1-1+1-1+1-1+1-1+1-1+1-1+3-1+1-1+1-1+1-1+1-1+1-1+1-1+1-1+",
  "1-1+1-1+1-1+1-1+1-1+1-1+1-1+1-1+1-1+1-1+1-1+1-1+1-1+1-1+1-1+1-1+1-1+1-1+1-1+1-1+1-1+1-1+1-1+10-1+",
  "1-1+1-2+1-1+1-1+1-1+1-1+4-1+1-1+2-1+1-1+3-1+1-1+1-1+1-1+1-1+1-1+1-1+1-1+1-1+1-1+1-5+1-5+1-1+1-1+1-",
  "1+1-1+1-1+1-1+1-1+1-4+1-1+1-2+3-1+5-1+1-1+1-1+1-1+24-1+890-80+20288-7+12-5+1033-26+1221-40+136-36+",
  "156-11+1-15+1-7+1-2+1770-51+157-22+2874-32+21888-32+31392-34+"]

end TreeQuery.Unicode
